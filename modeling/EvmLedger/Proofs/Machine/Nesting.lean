/-
# EvmLedger.Proofs.Machine.Nesting -- frames inside frames, scopes inside scopes

Frames are opened and closed in step with the scopes of the overlay, and only
the innermost scope is ever written to (`Transition.shift`).  So as long as a
frame is open, with whatever frames it starts in turn, the scopes that were there
before it lie untouched under its own (`Inside`), and when it ends they are met
again as they were.

The main statement is that frames are atomic: a frame that fails, in any of the
ways in which a frame can fail, leaves the scopes exactly as they were before it
was opened, and a frame that succeeds adds its own scope to the innermost one of
them and changes nothing else.
-/
import EvmLedger.Proofs.Machine.Run
import EvmLedger.Proofs.Overlay
import Mathlib.Data.Nat.Find
import Mathlib.Tactic.IntervalCases

namespace EvmLedger.Vm.Machine

set_option autoImplicit false

/-- The parameters of the frames that are open, innermost first. -/
def activations (m : Machine) : List Params :=
  match m.control with
  | .running frame | .halting frame _ => frame.params :: m.waiting.map (·.frame.params)
  | .enter _ | .returning _ => m.waiting.map (·.frame.params)

/-! ## Frames and scopes move together -/

/-- A step opens a frame and a scope, or it closes a frame and a scope, or it leaves both stacks as
they are. -/
theorem Transition.shift {ctx : Context} {m m' : Machine} {events : List Event}
    (moved : Transition ctx m m' events) :
    (∃ params, m'.activations = params :: m.activations ∧ m'.overlay.outer = m.overlay.scopes ∧
        m.control = .enter params) ∨
      (m'.activations = m.activations ∧ m'.overlay.outer = m.overlay.outer ∧
        ∀ params, m.control = .enter params →
          m'.overlay = m.overlay ∧ ∃ cause, m'.control = .returning (.trap cause)) ∨
      ∃ frame halt result settled, m.control = .halting frame halt ∧
        m.activations = frame.params :: m'.activations ∧
        settle ctx.schedule frame.params m.overlay (halt.result frame.gas) = (result, settled) ∧
        m'.overlay = (if result.isSuccess then settled.commit else settled.discard) ∧
        m'.control = .returning result := by
  cases moved with
  | opened prepared => exact Or.inl ⟨_, rfl, outer_prepare prepared, rfl⟩
  | rejected refused =>
      have same := Overlay.discard_enter
      exact Or.inr (Or.inl ⟨rfl, rfl, fun _ _ => ⟨same _, _, rfl⟩⟩)
  | ended exhausted => exact Or.inr (Or.inl ⟨rfl, rfl, fun _ enters => nomatch enters⟩)
  | advanced fetched ran | suspended fetched ran =>
      have effect := (Step.instruction_effect _).of_ok ran
      have params := effect.frame.params
      have outer := effect.footprint.outer
      refine Or.inr (Or.inl ⟨?_, outer, fun _ enters => nomatch enters⟩)
      simp only [activations, List.map_cons, params]
  | halted fetched ran =>
      have effect := (Step.instruction_effect _).of_error ran
      have params := effect.frame.params
      have outer := effect.footprint.outer
      refine Or.inr (Or.inl ⟨?_, outer, fun _ enters => nomatch enters⟩)
      simp only [activations, params]
  | closed settled => exact Or.inr (Or.inr ⟨_, _, _, _, rfl, rfl, settled, rfl, rfl⟩)
  | resumed ready =>
      refine Or.inr (Or.inl ⟨?_, rfl, fun _ enters => nomatch enters⟩)
      simp only [activations, List.map_cons, (resume_eq_ok ready).1.params]
  | overfull failed => exact Or.inr (Or.inl ⟨rfl, rfl, fun _ enters => nomatch enters⟩)
  | idle => exact Or.inr (Or.inl ⟨rfl, rfl, fun _ enters => nomatch enters⟩)

/-! ## Inside a frame -/

/-- `m` is inside the frame that `base` was about to start with `entered`: that frame is open, and
between its scope and the scopes of `base` there is nothing. -/
structure Inside (base : Machine) (entered : Params) (m : Machine) : Prop where
  nested : ∃ (lower : List Params) (inner : List Effects),
    m.activations = lower ++ entered :: base.activations ∧
      m.overlay.outer = inner ++ base.overlay.scopes ∧ inner.length = lower.length

/-- The frame that `base` was about to start with `entered` has been closed in the step from `m`
to `m'`: it came to `result`, and its own scope was `own` at the last. -/
structure Closes (ctx : Context) (base : Machine) (entered : Params) (m m' : Machine)
    (result : Result) (own : Overlay) : Prop where
  halting : ∃ frame halt, m.control = .halting frame halt ∧ frame.params = entered ∧
    settle ctx.schedule entered m.overlay (halt.result frame.gas) = (result, own)
  outer : own.outer = base.overlay.scopes
  returns : m'.control = .returning result
  activations : m'.activations = base.activations
  kept : result.isSuccess = true →
    m'.overlay = ⟨base.overlay.current.merge own.current, base.overlay.outer⟩
  undone : result.isSuccess = false → m'.overlay = base.overlay

/-- A frame stays open until it is closed itself, whatever happens inside it. -/
theorem Inside.step {ctx : Context} {base m m' : Machine} {entered : Params} {events : List Event}
    (inside : Inside base entered m) (moved : Transition ctx m m' events) :
    Inside base entered m' ∨ ∃ result own, Closes ctx base entered m m' result own := by
  obtain ⟨lower, inner, frames, scopes, even⟩ := inside.nested
  rcases moved.shift with ⟨params, opened, outer, _⟩ | ⟨same, outer, _⟩ |
      ⟨frame, halt, result, settled, halting, popped, ended, overlay, returns⟩
  · left
    refine ⟨params :: lower, m.overlay.current :: inner, ?_, ?_, ?_⟩
    · rw [opened, frames, List.cons_append]
    · rw [outer, Overlay.scopes_eq, scopes, List.cons_append]
    · simp [even]
  · exact Or.inl ⟨lower, inner, same.trans frames, outer.trans scopes, even⟩
  · rw [popped] at frames
    have outer := (outer_settle ended).trans scopes
    cases lower with
    | nil =>
        -- the frame itself is closed: next to its scope are the scopes of `base`
        right
        rw [List.nil_append, List.cons.injEq] at frames
        rw [List.eq_nil_of_length_eq_zero even, List.nil_append] at outer
        obtain ⟨entered, frames⟩ := frames
        refine ⟨result, settled, ⟨frame, halt, halting, entered, ?_⟩, outer, returns, frames, ?_, ?_⟩
        · rw [← entered]
          exact ended
        · intro succeeded
          rw [overlay, if_pos succeeded, Overlay.commit_of_outer outer]
        · intro failed
          rw [overlay, failed, if_neg Bool.false_ne_true, Overlay.discard_of_outer outer]
    | cons params lower =>
        -- a frame further in is closed: its scope merges with one that is not in `base`
        left
        cases inner with
        | nil => cases even
        | cons scope inner =>
            rw [List.cons_append, List.cons.injEq] at frames
            rw [List.cons_append] at outer
            refine ⟨lower, inner, frames.2, ?_, Nat.succ.inj even⟩
            rw [overlay]
            split
            · rw [Overlay.commit_of_outer outer]
            · rw [Overlay.discard_of_outer outer]

/-- The frame that `m` is about to start ends `k` steps later with `result`: for the first time a
result is there for the frames that were waiting before. -/
structure EndsAfter (ctx : Context) (m : Machine) (k : Nat) (result : Result) : Prop where
  returns : (exec ctx k m).control = .returning result
  level : (exec ctx k m).waiting.length = m.waiting.length
  first : ∀ j < k, ∀ other, (exec ctx j m).control = .returning other →
    (exec ctx j m).waiting.length ≠ m.waiting.length

/-- Inside a frame more frames wait than before it was opened, when a result is handed on. -/
theorem Inside.deeper {base m : Machine} {entered : Params} {result : Result}
    (inside : Inside base entered m) (enters : base.control = .enter entered)
    (returns : m.control = .returning result) : m.waiting.length ≠ base.waiting.length := by
  obtain ⟨lower, inner, frames, _, _⟩ := inside.nested
  have lengths := congrArg List.length frames
  simp only [activations, enters, returns, List.length_map, List.length_append,
    List.length_cons] at lengths
  omega

/-- Until a frame ends, the machine is inside it. -/
theorem inside_of_before_end {ctx : Context} {m : Machine} {entered : Params}
    (enters : m.control = .enter entered) {j : Nat}
    (stillOpen : ∀ i ≤ j + 1, ∀ other, (exec ctx i m).control = .returning other →
      (exec ctx i m).waiting.length ≠ m.waiting.length) : Inside m entered (exec ctx (j + 1) m) := by
  induction j with
  | zero =>
      have moved := step_transition ctx m
      rcases moved.shift with ⟨params, opened, outer, enters'⟩ | ⟨same, _, rejected⟩ |
          ⟨frame, halt, _, _, halting, _⟩
      · rw [enters] at enters'
        cases enters'
        exact ⟨[], [], opened, outer, rfl⟩
      · obtain ⟨_, cause, returns⟩ := rejected entered enters
        have lengths := congrArg List.length same
        simp only [activations, enters, returns, List.length_map] at lengths
        exact absurd lengths (stillOpen 1 (Nat.le_refl 1) _ returns)
      · rw [enters] at halting
        cases halting
  | succ j ih =>
      have inside := ih fun i le => stillOpen i (Nat.le_succ_of_le le)
      have moved := step_transition ctx (exec ctx (j + 1) m)
      rw [← exec_succ] at moved
      rcases inside.step moved with inside | ⟨result, own, closes⟩
      · exact inside
      · have lengths := congrArg List.length closes.activations
        simp only [activations, enters, closes.returns, List.length_map] at lengths
        exact absurd lengths (stillOpen _ (Nat.le_refl _) _ closes.returns)

/-- What the end of a frame is, seen from the machine that was about to start it: the frame was
turned away, or it was closed in the last step. -/
theorem EndsAfter.closes {ctx : Context} {m : Machine} {entered : Params} {k : Nat}
    {result : Result} (enters : m.control = .enter entered) (ends : EndsAfter ctx m k result) :
    ((∃ cause, result = .trap cause) ∧ (exec ctx k m).overlay = m.overlay) ∨
      ∃ j own, k = j + 1 ∧ Closes ctx m entered (exec ctx j m) (exec ctx k m) result own := by
  cases k with
  | zero =>
      have returns := ends.returns
      rw [exec_zero, enters] at returns
      cases returns
  | succ j =>
      have moved := transition_exec ctx j m
      cases j with
      | zero =>
          rcases moved.shift with ⟨params, opened, _, _⟩ | ⟨_, _, rejected⟩ |
              ⟨frame, halt, _, _, halting, _⟩
          · -- a frame that was opened is not there to return a result
            have lengths := congrArg List.length opened
            simp only [activations, ends.returns, exec_zero, enters, List.length_map,
              List.length_cons, ends.level] at lengths
            omega
          · obtain ⟨same, cause, returns⟩ := rejected entered enters
            rw [ends.returns] at returns
            cases returns
            exact Or.inl ⟨⟨cause, rfl⟩, same⟩
          · rw [exec_zero, enters] at halting
            cases halting
      | succ j =>
          have inside : Inside m entered (exec ctx (j + 1) m) :=
            inside_of_before_end enters fun i le => ends.first i (Nat.lt_succ_of_le le)
          rcases inside.step moved with inside | ⟨result', own, closes⟩
          · exact absurd ends.level (inside.deeper enters ends.returns)
          · have same := closes.returns
            rw [ends.returns] at same
            cases same
            exact Or.inr ⟨j + 1, own, rfl, closes⟩

/-- A run without waiting frames that has come to a result has ended the frame that it began
with. -/
theorem endsAfter_of_alone {ctx : Context} {m : Machine} (alone : m.waiting = []) {n : Nat}
    {result : Result} (ended : (exec ctx n m).result? = some result) :
    ∃ k, EndsAfter ctx m k result ∧ exec ctx k m = exec ctx n m := by
  classical
  have some_end : ∃ k, (exec ctx k m).result?.isSome := ⟨n, by rw [ended]; rfl⟩
  obtain ⟨other, found⟩ := Option.isSome_iff_exists.1 (Nat.find_spec some_end)
  have le : Nat.find some_end ≤ n := Nat.find_min' some_end (by rw [ended]; rfl)
  obtain ⟨rest, rfl⟩ := Nat.exists_eq_add_of_le le
  rw [exec_add, exec_of_result found] at ended ⊢
  rw [found] at ended
  cases ended
  obtain ⟨returns, empty⟩ := result?_eq_some.1 found
  refine ⟨_, ⟨returns, by rw [empty, alone], ?_⟩, rfl⟩
  intro j before other returns' level
  rw [alone] at level
  have empty' : (exec ctx j m).waiting = [] := List.eq_nil_of_length_eq_zero level
  refine Nat.find_min some_end before ?_
  rw [result?_eq_some.2 ⟨returns', empty'⟩]
  rfl

/-- A run that has come to a result has ended its outermost frame. -/
theorem endsAfter_of_result {ctx : Context} {params : Params} {cache : JumpCache} {n : Nat}
    {result : Result} (ended : (exec ctx n (.start params cache)).result? = some result) :
    ∃ k, EndsAfter ctx (.start params cache) k result ∧
      exec ctx k (.start params cache) = exec ctx n (.start params cache) :=
  endsAfter_of_alone rfl ended

/-! ## Atomicity -/

/-- Frames are atomic.  A frame that fails leaves all scopes as they were before it was opened.
When a frame succeeds, the scope that it has after the deposit of its code is merged into the
innermost one of the scopes that were there before it was opened, and the others stay.  So a
transaction that fails has no effects. -/
theorem frame_atomic (ctx : Context) :
    (∀ (m : Machine) (entered : Params) (k : Nat) (result : Result),
        m.control = .enter entered → EndsAfter ctx m k result →
        (result.isSuccess = false → (exec ctx k m).overlay = m.overlay) ∧
          (result.isSuccess = true → ∃ j frame halt own, k = j + 1 ∧
            (exec ctx j m).control = .halting frame halt ∧ frame.params = entered ∧
            settle ctx.schedule entered (exec ctx j m).overlay (halt.result frame.gas) =
              (result, own) ∧
            own.outer = m.overlay.scopes ∧
            (exec ctx k m).overlay =
              ⟨m.overlay.current.merge own.current, m.overlay.outer⟩)) ∧
      ∀ (σ : Type) (observe : σ → Event → σ) (cache cache' : JumpCache) (params : Params)
        (seen seen' : σ) (outcome : Outcome),
        executeObserved ctx observe cache params seen = .ok (outcome, cache', seen') →
        outcome.result.isSuccess = false → outcome.effects = .empty := by
  have atomic : ∀ (m : Machine) (entered : Params) (k : Nat) (result : Result),
      m.control = .enter entered → EndsAfter ctx m k result → result.isSuccess = false →
        (exec ctx k m).overlay = m.overlay := by
    intro m entered k result enters ends failed
    rcases ends.closes enters with ⟨_, same⟩ | ⟨j, own, _, closes⟩
    · exact same
    · exact closes.undone failed
  refine ⟨fun m entered k result enters ends => ⟨?_, ?_⟩, ?_⟩
  · exact atomic m entered k result enters ends
  · intro succeeded
    rcases ends.closes enters with ⟨⟨cause, rfl⟩, _⟩ | ⟨j, own, last, closes⟩
    · cases succeeded
    · obtain ⟨frame, halt, halting, started, settled⟩ := closes.halting
      exact ⟨j, frame, halt, own, last, halting, started, settled, closes.outer,
        closes.kept succeeded⟩
  · intro σ observe cache cache' params seen seen' outcome ran failed
    obtain ⟨n, ended, effects⟩ := executeObserved_eq_ok ran
    obtain ⟨k, ends, same⟩ := endsAfter_of_result ended
    have untouched := atomic _ params k _ rfl ends failed
    rw [same] at untouched
    rw [effects, untouched]
    rfl

/-- A machine about to start a frame that writes a slot and then meets the invalid byte, under a
scope with a log entry. -/
def spoiling : Machine :=
  ⟨⟨[], ({} : Overlay).addLog ⟨.zero, [], [7]⟩, ∅⟩, .enter
    { address := .zero
      sender := .zero
      origin := .zero
      gas := 30000
      code := [0x60, 0x01, 0x60, 0x00, 0x55, 0xfe] }⟩

/-- The slot is there until the frame is closed, and then it is gone. -/
theorem frame_atomic_spoiling :
    EndsAfter (.uniform 0) spoiling 6 (.trap .invalidInstruction) ∧
      (exec (.uniform 0) 5 spoiling).overlay.storage (Context.uniform 0).host .zero 0 = 1 ∧
      (exec (.uniform 0) 6 spoiling).overlay = spoiling.overlay := by
  have opened : next (.uniform 0) spoiling = _ := next_enter rfl
  have ends : EndsAfter (.uniform 0) spoiling 6 (.trap .invalidInstruction) := by
    refine ⟨?_, ?_, fun j before other returns => ?_⟩
    · rw [exec_succ_first, opened]
      rfl
    · rw [exec_succ_first, opened]
      rfl
    · exfalso
      cases j with
      | zero => cases returns
      | succ j =>
          have early : j < 5 := Nat.lt_of_succ_lt_succ before
          rw [exec_succ_first, opened] at returns
          interval_cases j <;> cases returns
  refine ⟨ends, ?_, ((frame_atomic (.uniform 0)).1 spoiling _ 6 _ rfl ends).1 rfl⟩
  rw [exec_succ_first, opened]
  decide +kernel

end EvmLedger.Vm.Machine
