/-
# EvmLedger.Proofs.Machine.Waiting -- frames that wait are left alone

A step puts a frame on top of the frames that wait, takes the top one off to hand
it a result, or leaves them all as they are (`Transition.waiting`).  So until the
frame that a machine is busy with has ended, the frames that waited for it are
still there, unchanged and in the same order (`waiting_suffix`), and when it ends
they are all that is there (`EndsAfter.exec_eq`).

Two laws cut a run into pieces.  `endsAfter_add_iff` cuts at any machine that has
the same frames waiting, and `exists_endsAfter` finds the end of a frame in a run
that goes on to a place further out.
-/
import EvmLedger.Proofs.Machine.Nesting

namespace EvmLedger.Vm.Machine

set_option autoImplicit false

/-- A step adds one waiting frame, hands a result to the nearest one, or leaves the waiting frames
alone. -/
theorem Transition.waiting {ctx : Context} {m m' : Machine} {events : List Event}
    (moved : Transition ctx m m' events) :
    m'.waiting = m.waiting ∨ (∃ suspended, m'.waiting = suspended :: m.waiting) ∨
      ∃ result suspended, m.control = .returning result ∧ m.waiting = suspended :: m'.waiting := by
  cases moved with
  | suspended fetched ran => exact Or.inr (Or.inl ⟨_, rfl⟩)
  | resumed ready => exact Or.inr (Or.inr ⟨_, _, rfl, rfl⟩)
  | overfull failed => exact Or.inr (Or.inr ⟨_, _, rfl, rfl⟩)
  | _ => exact Or.inl rfl

variable {ctx : Context} {m : Machine}

/-- For `k` steps no result has come back to the frames that waited in `m`. -/
def Ongoing (ctx : Context) (m : Machine) (k : Nat) : Prop :=
  ∀ j < k, ∀ result, (exec ctx j m).control = .returning result →
    (exec ctx j m).waiting.length ≠ m.waiting.length

theorem Ongoing.mono {j k : Nat} (ongoing : Ongoing ctx m k) (le : j ≤ k) : Ongoing ctx m j :=
  fun i before => ongoing i (Nat.lt_of_lt_of_le before le)

/-- A machine that is not handing on a result has not ended its frame. -/
theorem ongoing_one (busy : ∀ result, m.control ≠ .returning result) : Ongoing ctx m 1 := by
  intro j before result returns
  rw [Nat.lt_one_iff.1 before] at returns
  exact absurd returns (busy result)

/-- Until a frame ends, all frames that waited for it wait, just as they were. -/
theorem waiting_suffix {k : Nat} (ongoing : Ongoing ctx m k) :
    m.waiting <:+ (exec ctx k m).waiting := by
  induction k with
  | zero => exact List.suffix_refl _
  | succ k ih =>
      have below := ih (ongoing.mono (Nat.le_succ k))
      have moved := transition_exec ctx k m
      rcases moved.waiting with same | ⟨suspended, pushed⟩ | ⟨result, suspended, returns, popped⟩
      · rw [same]
        exact below
      · rw [pushed]
        exact below.trans (List.suffix_cons _ _)
      · -- the frame taken off is not one of those that waited in `m`
        rw [popped, List.suffix_cons_iff] at below
        rcases below with whole | below
        · refine absurd ?_ (ongoing k (Nat.lt_succ_self k) result returns)
          rw [popped, whole]
        · exact below

/-- Until a frame ends, no fewer frames wait. -/
theorem Ongoing.length_le {k : Nat} (ongoing : Ongoing ctx m k) :
    m.waiting.length ≤ (exec ctx k m).waiting.length :=
  (waiting_suffix ongoing).length_le

theorem EndsAfter.ongoing {k : Nat} {result : Result} (ends : EndsAfter ctx m k result) :
    Ongoing ctx m k :=
  ends.first

/-- When a frame ends, the frames that waited for it are all that is left. -/
theorem EndsAfter.waiting {k : Nat} {result : Result} (ends : EndsAfter ctx m k result) :
    (exec ctx k m).waiting = m.waiting :=
  ((waiting_suffix ends.ongoing).eq_of_length ends.level.symm).symm

theorem EndsAfter.exec_eq {k : Nat} {result : Result} (ends : EndsAfter ctx m k result) :
    exec ctx k m = ⟨⟨m.waiting, (exec ctx k m).overlay, (exec ctx k m).cache⟩,
      .returning result⟩ := by
  rw [← ends.waiting, ← ends.returns]

/-- A frame ends once. -/
theorem EndsAfter.unique {k k' : Nat} {result result' : Result} (ends : EndsAfter ctx m k result)
    (ends' : EndsAfter ctx m k' result') : k = k' := by
  rcases Nat.lt_trichotomy k k' with before | same | after
  · exact absurd ends.level (ends'.first k before result ends.returns)
  · exact same
  · exact absurd ends'.level (ends.first k' after result' ends'.returns)

/-- The end of a frame may be looked for from any later machine of its run that has the same frames
waiting. -/
theorem endsAfter_add_iff {i k : Nat} {result : Result}
    (level : (exec ctx i m).waiting.length = m.waiting.length) (ongoing : Ongoing ctx m i) :
    EndsAfter ctx m (i + k) result ↔ EndsAfter ctx (exec ctx i m) k result := by
  constructor
  · intro ends
    refine ⟨?_, ?_, fun j before other returns => ?_⟩
    · rw [← exec_add]
      exact ends.returns
    · rw [← exec_add, level]
      exact ends.level
    · rw [← exec_add] at returns ⊢
      rw [level]
      exact ends.first (i + j) (Nat.add_lt_add_left before i) other returns
  · intro ends
    refine ⟨?_, ?_, fun j before other returns => ?_⟩
    · rw [exec_add]
      exact ends.returns
    · rw [exec_add, ← level]
      exact ends.level
    · by_cases early : j < i
      · exact ongoing j early other returns
      · obtain ⟨rest, rfl⟩ := Nat.exists_eq_add_of_le (Nat.le_of_not_lt early)
        rw [exec_add] at returns ⊢
        rw [← level]
        exact ends.first rest (by omega) other returns

/-- The first time that a result is there for the frames that waited in `m` is when its frame
ends. -/
theorem ongoing_or_ended (ctx : Context) (m : Machine) (n : Nat) :
    Ongoing ctx m n ∨ ∃ k < n, ∃ result, EndsAfter ctx m k result := by
  classical
  rw [Classical.or_iff_not_imp_left]
  intro closed
  have ended : ∃ k < n, ∃ result, (exec ctx k m).control = .returning result ∧
      (exec ctx k m).waiting.length = m.waiting.length := by
    unfold Ongoing at closed
    push Not at closed
    exact closed
  obtain ⟨before, result, returns, level⟩ := Nat.find_spec ended
  refine ⟨Nat.find ended, before, result, returns, level, ?_⟩
  intro j earlier other returns' level'
  exact Nat.find_min ended earlier ⟨earlier.trans before, other, returns', level'⟩

/-- A frame has ended before fewer frames wait than waited for it. -/
theorem exists_endsAfter {n : Nat} (fewer : (exec ctx n m).waiting.length < m.waiting.length) :
    ∃ k < n, ∃ result, EndsAfter ctx m k result := by
  rcases ongoing_or_ended ctx m n with ongoing | ended
  · exact absurd ongoing.length_le (Nat.not_le.2 fewer)
  · exact ended

/-- A frame that has halted ends in the next step. -/
theorem endsAfter_of_halting {k : Nat} {frame : Frame} {halt : Halt} (ongoing : Ongoing ctx m k)
    (halting : (exec ctx k m).control = .halting frame halt)
    (level : (exec ctx k m).waiting.length = m.waiting.length) :
    ∃ result, EndsAfter ctx m (k + 1) result := by
  cases last : exec ctx k m with
  | mk scene control =>
      rw [last] at halting level
      cases halting
      have closed : exec ctx (k + 1) m = next ctx ⟨scene, .halting frame halt⟩ := by
        rw [exec_succ, last]
      let result := (settle ctx.schedule frame.params scene.overlay (halt.result frame.gas)).1
      refine ⟨result, ?_, ?_, fun j before other returns => ?_⟩
      · rw [closed]
        rfl
      · rw [closed]
        exact level
      · rcases Nat.lt_succ_iff_lt_or_eq.1 before with early | rfl
        · exact ongoing j early other returns
        · rw [last] at returns
          cases returns

/-! ## Looking at a machine

What a machine is about to do as a value that can be compared, so that facts about given runs can be
checked by running them. -/

/-- The byte of the instruction that is executed next. -/
def fetched? (m : Machine) : Option UInt8 :=
  match m.control with
  | .running frame => frame.code[frame.pc]?
  | _ => none

theorem fetched?_eq_some {m : Machine} {byte : UInt8} :
    m.fetched? = some byte ↔
      ∃ frame, m.control = .running frame ∧ frame.code[frame.pc]? = some byte := by
  unfold fetched?
  split <;> simp_all

/-- The frame that executes the next instruction. -/
def running? (m : Machine) : Option Frame :=
  match m.control with
  | .running frame => some frame
  | _ => none

theorem running?_eq_some {m : Machine} {frame : Frame} :
    m.running? = some frame ↔ m.control = .running frame := by
  unfold running?
  split <;> simp_all

/-- The parameters of the frame that is started next. -/
def entering? (m : Machine) : Option Params :=
  match m.control with
  | .enter params => some params
  | _ => none

theorem entering?_eq_some {m : Machine} {params : Params} :
    m.entering? = some params ↔ m.control = .enter params := by
  unfold entering?
  split <;> simp_all

/-- The result that a machine is handing on. -/
def returned? (m : Machine) : Option Result :=
  match m.control with
  | .returning result => some result
  | _ => none

theorem returned?_eq_some {m : Machine} {result : Result} :
    m.returned? = some result ↔ m.control = .returning result := by
  unfold returned?
  split <;> simp_all

theorem endsAfter_iff {ctx : Context} {m : Machine} {k : Nat} {result : Result} :
    EndsAfter ctx m k result ↔
      (exec ctx k m).returned? = some result ∧ (exec ctx k m).waiting.length = m.waiting.length ∧
        ∀ j < k, (exec ctx j m).waiting.length = m.waiting.length →
          (exec ctx j m).returned? = none := by
  constructor
  · intro ends
    refine ⟨returned?_eq_some.2 ends.returns, ends.level, fun j before level => ?_⟩
    rw [Option.eq_none_iff_forall_ne_some]
    intro other returned
    exact ends.first j before other (returned?_eq_some.1 returned) level
  · rintro ⟨returned, level, first⟩
    refine ⟨returned?_eq_some.1 returned, level, fun j before other returns same => ?_⟩
    rw [← returned?_eq_some, first j before same] at returns
    cases returns

instance (ctx : Context) (m : Machine) (k : Nat) (result : Result) :
    Decidable (EndsAfter ctx m k result) :=
  decidable_of_iff _ endsAfter_iff.symm

end EvmLedger.Vm.Machine
