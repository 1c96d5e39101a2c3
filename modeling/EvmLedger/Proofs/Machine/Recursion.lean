/-
# EvmLedger.Proofs.Machine.Recursion -- the list of waiting frames is recursion

The machine keeps frames that wait in a list.  The same language has a meaning
without that list: `evaluate` opens a frame, and `proceed` executes its
instructions; at a call or a creation the frame that is started is evaluated to
its end on the scopes as they are, one level deeper, and its result is handed to
the frame that started it, which goes on.  As a frame may never end, the evaluator
counts down how deep it recurs, and has no value when the count is used up.

The main statement is that the two agree: the machine ends a frame with some
result, scopes and jump cache exactly when the evaluator does from some count on.
As the evaluator never sees the frames that wait, what a frame comes to depends on
its parameters, its depth, the scopes and the jump cache only, and while it runs
the frames that wait for it are left alone.
-/
import EvmLedger.Proofs.Machine.Waiting

namespace EvmLedger.Vm.Machine

set_option autoImplicit false

/-! ## The evaluator -/

/-- What a frame comes to: its result, and the scopes and the jump cache that it leaves. -/
structure Ending where
  result : Result
  overlay : Overlay
  cache : JumpCache

/-- Settles a frame that executes no more instructions, and keeps or forgets its scope. -/
def conclude (ctx : Context) (overlay : Overlay) (cache : JumpCache) (frame : Frame)
    (halt : Halt) : Ending :=
  let (result, settled) := settle ctx.schedule frame.params overlay (halt.result frame.gas)
  ⟨result, if result.isSuccess then settled.commit else settled.discard, cache⟩

mutual

/-- What a frame that is to be started comes to. -/
def evaluate (ctx : Context) :
    (fuel depth : Nat) → Overlay → JumpCache → Params → Option Ending
  | 0, _, _, _, _ => none
  | fuel + 1, depth, overlay, cache, params =>
      match prepare ctx.host overlay.enter params with
      | .error cause => some ⟨.trap cause, overlay.enter.discard, cache⟩
      | .ok prepared =>
          let (jumps, cache) := cache.fetch params.code
          proceed ctx fuel prepared cache (.start params jumps depth)

/-- What a frame that is open comes to. -/
def proceed (ctx : Context) : (fuel : Nat) → Overlay → JumpCache → Frame → Option Ending
  | 0, _, _, _ => none
  | fuel + 1, overlay, cache, frame =>
      match frame.code[frame.pc]? with
      | none => some (conclude ctx overlay cache frame .stop)
      | some code =>
          match Step.instruction ctx code ⟨frame, overlay, []⟩ with
          | .ok .next s => proceed ctx fuel s.overlay cache s.frame
          | .error halt s => some (conclude ctx s.overlay cache s.frame halt)
          | .ok (.enter params continuation) s => do
              let nested ← evaluate ctx fuel (s.frame.depth + 1) s.overlay cache params
              match resume s.frame continuation nested.result with
              | .ok frame => proceed ctx fuel nested.overlay nested.cache frame
              | .error cause =>
                  some (conclude ctx nested.overlay nested.cache s.frame (.trap cause))

end

variable {ctx : Context}

section Kinds

variable {fuel : Nat} {overlay : Overlay} {cache : JumpCache} {params : Params}

theorem evaluate_refused {depth : Nat} {cause : Trap}
    (refused : prepare ctx.host overlay.enter params = .error cause) :
    evaluate ctx (fuel + 1) depth overlay cache params =
      some ⟨.trap cause, overlay.enter.discard, cache⟩ := by
  rw [evaluate, refused]

theorem evaluate_enter {depth : Nat} {prepared : Overlay}
    (ready : prepare ctx.host overlay.enter params = .ok prepared) :
    evaluate ctx (fuel + 1) depth overlay cache params =
      proceed ctx fuel prepared (cache.fetch params.code).2
        (.start params (cache.fetch params.code).1 depth) := by
  rw [evaluate, ready]

variable {frame : Frame} {code : UInt8} {t : Exec}

theorem proceed_ended (exhausted : frame.code[frame.pc]? = none) :
    proceed ctx (fuel + 1) overlay cache frame =
      some (conclude ctx overlay cache frame .stop) := by
  rw [proceed, exhausted]

theorem proceed_halted {halt : Halt} (fetched : frame.code[frame.pc]? = some code)
    (ran : Step.instruction ctx code ⟨frame, overlay, []⟩ = .error halt t) :
    proceed ctx (fuel + 1) overlay cache frame =
      some (conclude ctx t.overlay cache t.frame halt) := by
  rw [proceed, fetched]
  simp only [ran]

theorem proceed_advanced (fetched : frame.code[frame.pc]? = some code)
    (ran : Step.instruction ctx code ⟨frame, overlay, []⟩ = .ok .next t) :
    proceed ctx (fuel + 1) overlay cache frame = proceed ctx fuel t.overlay cache t.frame := by
  rw [proceed, fetched]
  simp only [ran]

/-- A frame that starts another one goes on with what the other one comes to. -/
theorem proceed_suspended {continuation : Continuation}
    (fetched : frame.code[frame.pc]? = some code)
    (ran : Step.instruction ctx code ⟨frame, overlay, []⟩ = .ok (.enter params continuation) t) :
    proceed ctx (fuel + 1) overlay cache frame =
      (evaluate ctx fuel (t.frame.depth + 1) t.overlay cache params).bind fun nested =>
        match resume t.frame continuation nested.result with
        | .ok frame => proceed ctx fuel nested.overlay nested.cache frame
        | .error cause =>
            some (conclude ctx nested.overlay nested.cache t.frame (.trap cause)) := by
  rw [proceed, fetched]
  simp only [ran, Option.bind_eq_bind]

end Kinds

/-! ## How the machine ends a frame -/

/-- After `k` steps the frame that `m` is busy with has come to `ending`, and the frames that
waited for it are the ones that wait. -/
structure ComesTo (ctx : Context) (m : Machine) (k : Nat) (ending : Ending) : Prop where
  ends : EndsAfter ctx m k ending.result
  left : exec ctx k m = ⟨⟨m.waiting, ending.overlay, ending.cache⟩, .returning ending.result⟩

theorem EndsAfter.comesTo {m : Machine} {k : Nat} {result : Result}
    (ends : EndsAfter ctx m k result) :
    ComesTo ctx m k ⟨result, (exec ctx k m).overlay, (exec ctx k m).cache⟩ :=
  ⟨ends, ends.exec_eq⟩

theorem comesTo_zero (waiting : List Suspended) (ending : Ending) :
    ComesTo ctx ⟨⟨waiting, ending.overlay, ending.cache⟩, .returning ending.result⟩ 0 ending :=
  ⟨⟨rfl, rfl, fun _ before => absurd before (Nat.not_lt_zero _)⟩, rfl⟩

theorem ComesTo.unique {m : Machine} {k k' : Nat} {ending ending' : Ending}
    (comes : ComesTo ctx m k ending) (comes' : ComesTo ctx m k' ending') : ending = ending' := by
  cases comes.ends.unique comes'.ends
  have left := comes.left.symm.trans comes'.left
  cases ending
  cases ending'
  cases left
  rfl

/-- Cutting a run at a machine with the same frames waiting. -/
theorem comesTo_add_iff {m : Machine} {i k : Nat} {ending : Ending}
    (same : (exec ctx i m).waiting = m.waiting) (ongoing : Ongoing ctx m i) :
    ComesTo ctx m (i + k) ending ↔ ComesTo ctx (exec ctx i m) k ending := by
  have cut : EndsAfter ctx m (i + k) ending.result ↔ EndsAfter ctx (exec ctx i m) k ending.result :=
    endsAfter_add_iff (congrArg List.length same) ongoing
  constructor
  · intro comes
    refine ⟨cut.1 comes.ends, ?_⟩
    rw [← exec_add, comes.left, same]
  · intro comes
    refine ⟨cut.2 comes.ends, ?_⟩
    rw [exec_add, comes.left, same]

/-- A frame that does not end by the next step comes to what the next machine comes to. -/
theorem comesTo_succ_iff {m m' : Machine} {k : Nat} {ending : Ending}
    (moves : next ctx m = m') (busy : ∀ result, m.control ≠ .returning result)
    (same : m'.waiting = m.waiting) :
    ComesTo ctx m (k + 1) ending ↔ ComesTo ctx m' k ending := by
  subst moves
  rw [Nat.add_comm]
  exact comesTo_add_iff same (ongoing_one busy)

/-- A frame that does not hand on a result takes a step at least. -/
theorem ComesTo.exists_succ {m : Machine} {k : Nat} {ending : Ending}
    (comes : ComesTo ctx m k ending) (busy : ∀ result, m.control ≠ .returning result) :
    ∃ j, k = j + 1 := by
  cases k with
  | zero => exact absurd comes.ends.returns (busy _)
  | succ j => exact ⟨j, rfl⟩

section Laws

variable {waiting : List Suspended} {overlay : Overlay} {cache : JumpCache} {k : Nat}
  {ending : Ending}

theorem next_closed (frame : Frame) (halt : Halt) :
    next ctx ⟨⟨waiting, overlay, cache⟩, .halting frame halt⟩ =
      ⟨⟨waiting, (conclude ctx overlay cache frame halt).overlay,
        (conclude ctx overlay cache frame halt).cache⟩,
        .returning (conclude ctx overlay cache frame halt).result⟩ := rfl

/-- A frame that halted comes to its closing. -/
theorem comesTo_conclude (frame : Frame) (halt : Halt) :
    ComesTo ctx ⟨⟨waiting, overlay, cache⟩, .halting frame halt⟩ 1
      (conclude ctx overlay cache frame halt) :=
  (comesTo_succ_iff (next_closed frame halt) (fun _ returns => Control.noConfusion returns) rfl).2
    (comesTo_zero waiting _)

/-- A frame that started another one goes on where the other one has ended. -/
theorem comesTo_nested_iff {m n : Machine} {suspended : Suspended} {k₁ k₂ : Nat}
    {nested : Ending} (moves : next ctx m = n) (busy : ∀ result, m.control ≠ .returning result)
    (pushed : n.waiting = suspended :: m.waiting) (inner : ComesTo ctx n k₁ nested) :
    ComesTo ctx m (k₁ + 2 + k₂) ending ↔
      ComesTo ctx (next ctx ⟨⟨suspended :: m.waiting, nested.overlay, nested.cache⟩,
        .returning nested.result⟩) k₂ ending := by
  subst moves
  have there : exec ctx (k₁ + 2) m =
      next ctx ⟨⟨suspended :: m.waiting, nested.overlay, nested.cache⟩,
        .returning nested.result⟩ := by
    rw [exec_succ_first, exec_succ, inner.left, pushed]
  rw [← there]
  refine comesTo_add_iff ?_ ?_
  · -- the result is handed to the frame that was suspended
    rw [there]
    obtain ⟨frame, continuation⟩ := suspended
    cases ready : resume frame continuation nested.result with
    | ok frame' => rw [next_resumed ready]
    | error cause => rw [next_overfull ready]
  · intro j before result returns
    cases j with
    | zero => exact absurd returns (busy result)
    | succ j =>
        have early : j ≤ k₁ := by omega
        have le := (inner.ends.ongoing.mono early).length_le
        rw [pushed, List.length_cons] at le
        rw [exec_succ_first]
        omega

/-- A frame that started another one does not end before the other one has. -/
theorem ComesTo.nested {m n : Machine} {suspended : Suspended}
    (comes : ComesTo ctx m k ending) (moves : next ctx m = n)
    (busy : ∀ result, m.control ≠ .returning result)
    (pushed : n.waiting = suspended :: m.waiting) (busy' : ∀ result, n.control ≠ .returning result) :
    ∃ k₁ k₂ nested, k = k₁ + 2 + k₂ ∧ ComesTo ctx n k₁ nested := by
  subst moves
  obtain ⟨j, rfl⟩ := comes.exists_succ busy
  have fewer : (exec ctx j (next ctx m)).waiting.length < (next ctx m).waiting.length := by
    rw [← exec_succ_first, comes.left, pushed]
    exact Nat.lt_succ_self _
  obtain ⟨k₁, before, result, ends⟩ := exists_endsAfter fewer
  obtain ⟨k₂, rfl⟩ := Nat.exists_eq_add_of_lt before
  exact ⟨k₁, k₂, _, by omega, ends.comesTo⟩

end Laws

/-! ## The evaluator and the machine agree -/

/-- `value` is what the machine `m` comes to: nothing else is, and if `fuel` steps are enough for
`m` to come to something then there is a value. -/
structure Agrees (ctx : Context) (m : Machine) (fuel : Nat) (value : Option Ending) : Prop where
  comes : ∀ ending, value = some ending → ∃ k, ComesTo ctx m k ending
  valued : ∀ k ≤ fuel, ∀ ending, ComesTo ctx m k ending → value = some ending

namespace Agrees

variable {m n : Machine} {fuel : Nat} {value : Option Ending} {waiting : List Suspended}
  {overlay : Overlay} {cache : JumpCache}

theorem zero (busy : ∀ result, m.control ≠ .returning result) : Agrees ctx m 0 none where
  comes _ valued := nomatch valued
  valued k none_left ending comes := by
    obtain ⟨j, rfl⟩ := comes.exists_succ busy
    exact absurd none_left (Nat.not_succ_le_zero j)

theorem returned (ending : Ending) :
    Agrees ctx ⟨⟨waiting, ending.overlay, ending.cache⟩, .returning ending.result⟩ fuel
      (some ending) where
  comes other valued := by
    cases valued
    exact ⟨0, comesTo_zero waiting ending⟩
  valued _ _ other comes := congrArg some ((comesTo_zero waiting ending).unique comes)

theorem concluded (frame : Frame) (halt : Halt) :
    Agrees ctx ⟨⟨waiting, overlay, cache⟩, .halting frame halt⟩ fuel
      (some (conclude ctx overlay cache frame halt)) where
  comes other valued := by
    cases valued
    exact ⟨1, comesTo_conclude frame halt⟩
  valued _ _ other comes := congrArg some ((comesTo_conclude frame halt).unique comes)

/-- A step among the same waiting frames takes one from the count. -/
theorem succ (agrees : Agrees ctx n fuel value) (moves : next ctx m = n)
    (busy : ∀ result, m.control ≠ .returning result) (same : n.waiting = m.waiting) :
    Agrees ctx m (fuel + 1) value where
  comes ending valued := by
    obtain ⟨k, comes⟩ := agrees.comes ending valued
    exact ⟨k + 1, (comesTo_succ_iff moves busy same).2 comes⟩
  valued k le ending comes := by
    obtain ⟨j, rfl⟩ := comes.exists_succ busy
    exact agrees.valued j (Nat.le_of_succ_le_succ le) ending
      ((comesTo_succ_iff moves busy same).1 comes)

/-- The value of a frame that started another one is made of the value of the other one and of
what it goes on to with it. -/
theorem bind {suspended : Suspended} {goesOn : Ending → Option Ending}
    (opens : Agrees ctx n fuel value)
    (resumes : ∀ nested : Ending, Agrees ctx (next ctx ⟨⟨suspended :: m.waiting, nested.overlay,
      nested.cache⟩, .returning nested.result⟩) fuel (goesOn nested))
    (moves : next ctx m = n) (busy : ∀ result, m.control ≠ .returning result)
    (pushed : n.waiting = suspended :: m.waiting)
    (busy' : ∀ result, n.control ≠ .returning result) :
    Agrees ctx m (fuel + 1) (value.bind goesOn) where
  comes ending valued := by
    obtain ⟨nested, inner, rest⟩ := Option.bind_eq_some_iff.1 valued
    obtain ⟨k₁, inner⟩ := opens.comes nested inner
    obtain ⟨k₂, rest⟩ := (resumes nested).comes ending rest
    exact ⟨k₁ + 2 + k₂, (comesTo_nested_iff moves busy pushed inner).2 rest⟩
  valued k le ending comes := by
    obtain ⟨k₁, k₂, nested, rfl, inner⟩ := comes.nested moves busy pushed busy'
    have rest := (comesTo_nested_iff moves busy pushed inner).1 comes
    rw [opens.valued k₁ (by omega) nested inner, Option.bind_some]
    exact (resumes nested).valued k₂ (by omega) ending rest

end Agrees

/-- The evaluator agrees with the machine on a frame that is to be started. -/
def Evaluates (ctx : Context) (fuel : Nat) : Prop :=
  ∀ (waiting : List Suspended) (overlay : Overlay) (cache : JumpCache) (params : Params),
    Agrees ctx ⟨⟨waiting, overlay, cache⟩, .enter params⟩ fuel
      (evaluate ctx fuel waiting.length overlay cache params)

/-- The evaluator agrees with the machine on a frame that is open. -/
def Proceeds (ctx : Context) (fuel : Nat) : Prop :=
  ∀ (waiting : List Suspended) (overlay : Overlay) (cache : JumpCache) (frame : Frame),
    waiting.length = frame.depth →
      Agrees ctx ⟨⟨waiting, overlay, cache⟩, .running frame⟩ fuel
        (proceed ctx fuel overlay cache frame)

theorem Proceeds.evaluates {fuel : Nat} (proceeds : Proceeds ctx fuel) :
    Evaluates ctx (fuel + 1) := by
  intro waiting overlay cache params
  have busy : ∀ result, Control.enter params ≠ .returning result :=
    fun _ returns => nomatch returns
  cases ready : prepare ctx.host overlay.enter params with
  | error cause =>
      rw [evaluate_refused ready]
      exact (Agrees.returned _).succ (next_enter_refused ready) busy rfl
  | ok prepared =>
      rw [evaluate_enter ready]
      exact (proceeds waiting _ _ _ rfl).succ (next_enter ready) busy rfl

theorem Evaluates.proceeds {fuel : Nat} (evaluates : Evaluates ctx fuel)
    (proceeds : Proceeds ctx fuel) : Proceeds ctx (fuel + 1) := by
  intro waiting overlay cache frame level
  have busy : ∀ result, Control.running frame ≠ .returning result :=
    fun _ returns => nomatch returns
  cases fetched : frame.code[frame.pc]? with
  | none =>
      rw [proceed_ended fetched]
      exact (Agrees.concluded _ _).succ (next_ended fetched) busy rfl
  | some code =>
      cases ran : Step.instruction ctx code ⟨frame, overlay, []⟩ with
      | error halt t =>
          rw [proceed_halted fetched ran]
          exact (Agrees.concluded _ _).succ (next_halted fetched ran) busy rfl
      | ok flow t =>
          have depth := ((Step.instruction_effect code).of_ok ran).frame.depth
          cases flow with
          | next =>
              rw [proceed_advanced fetched ran]
              exact (proceeds waiting _ _ _ (level.trans depth.symm)).succ
                (next_advanced fetched ran) busy rfl
          | enter params continuation =>
              have opens := evaluates (⟨t.frame, continuation⟩ :: waiting) t.overlay cache params
              rw [List.length_cons, level, ← depth] at opens
              rw [proceed_suspended fetched ran]
              refine opens.bind (fun nested => ?_) (next_suspended fetched ran) busy rfl
                fun _ enters => nomatch enters
              cases ready : resume t.frame continuation nested.result with
              | ok frame' =>
                  rw [next_resumed ready]
                  refine proceeds waiting _ _ _ ?_
                  rw [(resume_eq_ok ready).1.depth, depth, level]
              | error cause =>
                  rw [next_overfull ready]
                  exact Agrees.concluded _ _

/-- With every count, the evaluator agrees with the machine. -/
theorem evaluates_proceeds (ctx : Context) (fuel : Nat) :
    Evaluates ctx fuel ∧ Proceeds ctx fuel := by
  induction fuel with
  | zero =>
      constructor
      · exact fun _ _ _ _ => Agrees.zero fun _ enters => nomatch enters
      · exact fun _ _ _ _ _ => Agrees.zero fun _ runs => nomatch runs
  | succ fuel ih => exact ⟨ih.2.evaluates, ih.1.proceeds ih.2⟩

/-- The count decides whether there is a value, not which. -/
theorem evaluate_unique {fuel fuel' depth : Nat} {overlay : Overlay} {cache : JumpCache}
    {params : Params} {ending ending' : Ending}
    (value : evaluate ctx fuel depth overlay cache params = some ending)
    (value' : evaluate ctx fuel' depth overlay cache params = some ending') :
    ending = ending' := by
  -- any frames may be the ones that wait, as long as there are `depth` of them
  obtain ⟨waiting, rfl⟩ : ∃ waiting : List Suspended, waiting.length = depth :=
    ⟨.replicate depth ⟨.start params (cache.fetch params.code).1 depth, .call 0 0⟩,
      List.length_replicate⟩
  obtain ⟨k, comes⟩ := ((evaluates_proceeds ctx fuel).1 _ _ _ _).comes _ value
  obtain ⟨k', comes'⟩ := ((evaluates_proceeds ctx fuel').1 _ _ _ _).comes _ value'
  exact comes.unique comes'

/-- The machine is the recursive evaluator with its recursion kept in a list.  A run without
waiting frames ends with a result, scopes and a jump cache exactly when the evaluator comes to
them with some count, whoever observes it, and so does a frame that others wait for.  The frames
that wait are met again just as they were: up to the end of the frame they wait for, nothing about
them changes. -/
theorem run_iff_evaluate (ctx : Context) :
    (∀ (σ : Type) (observe : σ → Event → σ) (seen : σ) (params : Params)
        (overlay overlay' : Overlay) (cache cache' : JumpCache) (result : Result),
        (∃ fuel seen', run ctx observe fuel ⟨⟨[], overlay, cache⟩, .enter params⟩ seen =
            some (result, ⟨⟨[], overlay', cache'⟩, .returning result⟩, seen')) ↔
          ∃ fuel, evaluate ctx fuel 0 overlay cache params = some ⟨result, overlay', cache'⟩) ∧
      (∀ (waiting : List Suspended) (params : Params) (overlay overlay' : Overlay)
        (cache cache' : JumpCache) (result : Result),
        (∃ k, EndsAfter ctx ⟨⟨waiting, overlay, cache⟩, .enter params⟩ k result ∧
            exec ctx k ⟨⟨waiting, overlay, cache⟩, .enter params⟩ =
              ⟨⟨waiting, overlay', cache'⟩, .returning result⟩) ↔
          ∃ fuel, evaluate ctx fuel waiting.length overlay cache params =
            some ⟨result, overlay', cache'⟩) ∧
      ∀ (m : Machine) (n : Nat),
        m.waiting <:+ (exec ctx n m).waiting ∨ ∃ k < n, ∃ result, EndsAfter ctx m k result := by
  have nested : ∀ (waiting : List Suspended) (params : Params) (overlay overlay' : Overlay)
      (cache cache' : JumpCache) (result : Result),
      (∃ k, EndsAfter ctx ⟨⟨waiting, overlay, cache⟩, .enter params⟩ k result ∧
          exec ctx k ⟨⟨waiting, overlay, cache⟩, .enter params⟩ =
            ⟨⟨waiting, overlay', cache'⟩, .returning result⟩) ↔
        ∃ fuel, evaluate ctx fuel waiting.length overlay cache params =
          some ⟨result, overlay', cache'⟩ := by
    intro waiting params overlay overlay' cache cache' result
    constructor
    · rintro ⟨k, ends, left⟩
      exact ⟨k, ((evaluates_proceeds ctx k).1 _ _ _ _).valued k le_rfl
        ⟨result, overlay', cache'⟩ ⟨ends, left⟩⟩
    · rintro ⟨fuel, value⟩
      obtain ⟨k, comes⟩ := ((evaluates_proceeds ctx fuel).1 _ _ _ _).comes _ value
      exact ⟨k, comes.ends, comes.left⟩
  refine ⟨?_, nested, fun m n => (ongoing_or_ended ctx m n).imp_left waiting_suffix⟩
  intro σ observe seen params overlay overlay' cache cache' result
  rw [← List.length_nil, ← nested]
  constructor
  · rintro ⟨fuel, seen', returned⟩
    obtain ⟨n, reached, ended⟩ := run_eq_some returned
    rw [← reached] at ended
    obtain ⟨k, ends, same⟩ := endsAfter_of_alone rfl ended
    exact ⟨k, ends, same.trans reached⟩
  · rintro ⟨k, ends, left⟩
    have ended : (exec ctx k ⟨⟨[], overlay, cache⟩, .enter params⟩).result? = some result := by
      rw [left]
      rfl
    obtain ⟨seen', returned⟩ := run_of_result seen ended
    rw [left] at returned
    exact ⟨k + 1, seen', returned⟩

end EvmLedger.Vm.Machine
