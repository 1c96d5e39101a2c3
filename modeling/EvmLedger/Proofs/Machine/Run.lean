/-
# EvmLedger.Proofs.Machine.Run -- what a step does, and runs as sequences of steps

`Transition` says everything that one step of the machine can do: each of its
constructors is one kind of step, with what was found out on the way and the
events that were told.  `step_transition` is the inversion law; laws about runs
are proved for transitions and carried along a run by induction on the number of
steps (`exec`).

`run` adds a bound and an observer to that.  `run_eq_some` and `run_isSome` say
that neither changes anything: a run that returns has taken some number of steps
to a machine that has a result, and a machine that gets to a result within the
bound returns, whoever watches.  `executeObserved_ran` does the same for whole
transactions, which watch for instructions without a price; where there is no such
instruction, that changes nothing either (`executeObserved_of_priced`).
-/
import EvmLedger.Proofs.Step.Footprint
import EvmLedger.Vm.Machine
import Mathlib.Logic.Function.Iterate

namespace EvmLedger.Vm

set_option autoImplicit false

/-- The Frontier prices in a world where all accounts hold the same funds and nothing else. -/
def Context.uniform (funds : Word) : Context where
  host :=
    { code := fun _ => []
      balance := fun _ => funds
      storageAt := fun _ => []
      nonce := fun _ => 0 }

/-- The same world, where one account has code. -/
def Context.hosting (funds : Word) (callee : Address) (code : Bytes) : Context where
  host :=
    { (Context.uniform funds).host with
      code := fun address => if address = callee then code else [] }

namespace Machine

/-- One step of the machine, without what it tells. -/
def next (ctx : Context) (m : Machine) : Machine := (step ctx m).1

/-- What the next step of the machine tells. -/
def told (ctx : Context) (m : Machine) : List Event := (step ctx m).2

/-- The machine after `n` steps. -/
def exec (ctx : Context) (n : Nat) (m : Machine) : Machine := (next ctx)^[n] m

@[simp] theorem exec_zero (ctx : Context) (m : Machine) : exec ctx 0 m = m := rfl

theorem exec_succ (ctx : Context) (n : Nat) (m : Machine) :
    exec ctx (n + 1) m = next ctx (exec ctx n m) :=
  Function.iterate_succ_apply' (next ctx) n m

/-- The first step of a run, and then the others. -/
theorem exec_succ_first (ctx : Context) (n : Nat) (m : Machine) :
    exec ctx (n + 1) m = exec ctx n (next ctx m) := rfl

theorem exec_add (ctx : Context) (n k : Nat) (m : Machine) :
    exec ctx (n + k) m = exec ctx k (exec ctx n m) := by
  unfold exec
  rw [Nat.add_comm, Function.iterate_add_apply]

/-! ## Kinds of steps -/

/-- All that a step can do, with the events that it tells. -/
inductive Transition (ctx : Context) : Machine → Machine → List Event → Prop
  | opened {scene : Scene} {params : Params} {overlay : Overlay} {jumps : JumpTable}
      {cache : JumpCache} {events : List Event}
      (prepared : prepare ctx.host scene.overlay.enter params = .ok overlay)
      (known : scene.cache.fetch params.code = (jumps, cache)) :
      Transition ctx ⟨scene, .enter params⟩
        ⟨⟨scene.waiting, overlay, cache⟩, .running (.start params jumps scene.waiting.length)⟩
        events
  | rejected {scene : Scene} {params : Params} {cause : Trap} {events : List Event}
      (refused : prepare ctx.host scene.overlay.enter params = .error cause) :
      Transition ctx ⟨scene, .enter params⟩
        ⟨{ scene with overlay := scene.overlay.enter.discard }, .returning (.trap cause)⟩ events
  /-- the code has no more instructions -/
  | ended {scene : Scene} {frame : Frame} (exhausted : frame.code[frame.pc]? = none) :
      Transition ctx ⟨scene, .running frame⟩ ⟨scene, .halting frame .stop⟩ []
  | advanced {scene : Scene} {frame : Frame} {code : UInt8} {t : Exec}
      (fetched : frame.code[frame.pc]? = some code)
      (ran : Step.instruction ctx code ⟨frame, scene.overlay, []⟩ = .ok .next t) :
      Transition ctx ⟨scene, .running frame⟩
        ⟨⟨scene.waiting, t.overlay, scene.cache⟩, .running t.frame⟩ t.events.reverse
  /-- the frame waits for another one -/
  | suspended {scene : Scene} {frame : Frame} {code : UInt8} {t : Exec} {params : Params}
      {continuation : Continuation} (fetched : frame.code[frame.pc]? = some code)
      (ran : Step.instruction ctx code ⟨frame, scene.overlay, []⟩ =
        .ok (.enter params continuation) t) :
      Transition ctx ⟨scene, .running frame⟩
        ⟨⟨⟨t.frame, continuation⟩ :: scene.waiting, t.overlay, scene.cache⟩, .enter params⟩
        t.events.reverse
  | halted {scene : Scene} {frame : Frame} {code : UInt8} {t : Exec} {halt : Halt}
      (fetched : frame.code[frame.pc]? = some code)
      (ran : Step.instruction ctx code ⟨frame, scene.overlay, []⟩ = .error halt t) :
      Transition ctx ⟨scene, .running frame⟩
        ⟨⟨scene.waiting, t.overlay, scene.cache⟩, .halting t.frame halt⟩ t.events.reverse
  | closed {scene : Scene} {frame : Frame} {halt : Halt} {result : Result} {overlay : Overlay}
      (settled : settle ctx.schedule frame.params scene.overlay (halt.result frame.gas) =
        (result, overlay)) :
      Transition ctx ⟨scene, .halting frame halt⟩
        ⟨{ scene with overlay := if result.isSuccess then overlay.commit else overlay.discard },
          .returning result⟩ [.exit frame.depth]
  | resumed {waiting : List Suspended} {overlay : Overlay} {cache : JumpCache} {frame : Frame}
      {frame' : Frame} {continuation : Continuation} {result : Result}
      (ready : resume frame continuation result = .ok frame') :
      Transition ctx ⟨⟨⟨frame, continuation⟩ :: waiting, overlay, cache⟩, .returning result⟩
        ⟨⟨waiting, overlay, cache⟩, .running frame'⟩ []
  /-- a waiting frame has no room for the result -/
  | overfull {waiting : List Suspended} {overlay : Overlay} {cache : JumpCache} {frame : Frame}
      {continuation : Continuation} {result : Result} {cause : Trap}
      (failed : resume frame continuation result = .error cause) :
      Transition ctx ⟨⟨⟨frame, continuation⟩ :: waiting, overlay, cache⟩, .returning result⟩
        ⟨⟨waiting, overlay, cache⟩, .halting frame (.trap cause)⟩ []
  /-- the run has ended -/
  | idle {overlay : Overlay} {cache : JumpCache} {result : Result} :
      Transition ctx ⟨⟨[], overlay, cache⟩, .returning result⟩
        ⟨⟨[], overlay, cache⟩, .returning result⟩ []

/-- There is no other kind of step. -/
theorem step_transition (ctx : Context) (m : Machine) :
    Transition ctx m (next ctx m) (told ctx m) := by
  obtain ⟨scene, control⟩ := m
  unfold next told
  cases control with
  | enter params =>
      simp only [step, openFrame]
      cases prepared : prepare ctx.host scene.overlay.enter params with
      | ok overlay => exact .opened prepared rfl
      | error cause => exact .rejected prepared
  | running frame =>
      simp only [step, stepFrame]
      cases fetched : frame.code[frame.pc]? with
      | none => exact .ended fetched
      | some code =>
          obtain ⟨waiting, overlay, cache⟩ := scene
          cases ran : Step.instruction ctx code ⟨frame, overlay, []⟩ with
          | error halt t =>
              simp only [EStateM.run, ran]
              exact .halted fetched ran
          | ok flow t =>
              simp only [EStateM.run, ran]
              cases flow with
              | next => exact .advanced fetched ran
              | enter params continuation => exact .suspended fetched ran
  | halting frame halt =>
      simp only [step, closeFrame]
      cases settled : settle ctx.schedule frame.params scene.overlay (halt.result frame.gas) with
      | mk result overlay => exact .closed settled
  | returning result =>
      obtain ⟨waiting, overlay, cache⟩ := scene
      cases waiting with
      | nil => exact .idle
      | cons nearest rest =>
          obtain ⟨frame, continuation⟩ := nearest
          simp only [step, stepReturn]
          cases ready : resume frame continuation result with
          | ok frame' => exact .resumed ready
          | error cause => exact .overfull ready

/-- The step after the first `n` of a run. -/
theorem transition_exec (ctx : Context) (n : Nat) (m : Machine) :
    Transition ctx (exec ctx n m) (exec ctx (n + 1) m) (told ctx (exec ctx n m)) := by
  rw [exec_succ]
  exact step_transition ctx (exec ctx n m)

/-- A frame is about to be started after an instruction that starts it. -/
theorem Transition.starts {ctx : Context} {m m' : Machine} {events : List Event} {frame : Frame}
    {params : Params} (moved : Transition ctx m m' events) (running : m.control = .running frame)
    (enters : m'.control = .enter params) :
    ∃ code continuation t, frame.code[frame.pc]? = some code ∧
      Step.instruction ctx code ⟨frame, m.overlay, []⟩ = .ok (.enter params continuation) t ∧
      m' = ⟨⟨⟨t.frame, continuation⟩ :: m.waiting, t.overlay, m.cache⟩, .enter params⟩ := by
  cases moved with
  | suspended fetched ran =>
      cases running
      cases enters
      exact ⟨_, _, _, fetched, ran, rfl⟩
  | opened | rejected | closed | resumed | overfull | idle => cases running
  | ended | advanced | halted => cases enters

/-- A frame that may start does start. -/
theorem next_enter {ctx : Context} {scene : Scene} {params : Params} {overlay : Overlay}
    (prepared : prepare ctx.host scene.overlay.enter params = .ok overlay) :
    next ctx ⟨scene, .enter params⟩ =
      ⟨⟨scene.waiting, overlay, (scene.cache.fetch params.code).2⟩,
        .running (.start params (scene.cache.fetch params.code).1 scene.waiting.length)⟩ := by
  simp only [next, step, openFrame, prepared]

section Kinds

variable {ctx : Context} {scene : Scene} {frame : Frame} {code : UInt8} {t : Exec}

theorem next_enter_refused {params : Params} {cause : Trap}
    (refused : prepare ctx.host scene.overlay.enter params = .error cause) :
    next ctx ⟨scene, .enter params⟩ =
      ⟨{ scene with overlay := scene.overlay.enter.discard }, .returning (.trap cause)⟩ := by
  simp only [next, step, openFrame, refused]

theorem next_ended (exhausted : frame.code[frame.pc]? = none) :
    next ctx ⟨scene, .running frame⟩ = ⟨scene, .halting frame .stop⟩ := by
  simp only [next, step, stepFrame, exhausted]

theorem next_advanced (fetched : frame.code[frame.pc]? = some code)
    (ran : Step.instruction ctx code ⟨frame, scene.overlay, []⟩ = .ok .next t) :
    next ctx ⟨scene, .running frame⟩ =
      ⟨⟨scene.waiting, t.overlay, scene.cache⟩, .running t.frame⟩ := by
  simp only [next, step, stepFrame, fetched, EStateM.run, ran]

theorem next_suspended {params : Params} {continuation : Continuation}
    (fetched : frame.code[frame.pc]? = some code)
    (ran : Step.instruction ctx code ⟨frame, scene.overlay, []⟩ =
      .ok (.enter params continuation) t) :
    next ctx ⟨scene, .running frame⟩ =
      ⟨⟨⟨t.frame, continuation⟩ :: scene.waiting, t.overlay, scene.cache⟩, .enter params⟩ := by
  simp only [next, step, stepFrame, fetched, EStateM.run, ran]

theorem next_halted {halt : Halt} (fetched : frame.code[frame.pc]? = some code)
    (ran : Step.instruction ctx code ⟨frame, scene.overlay, []⟩ = .error halt t) :
    next ctx ⟨scene, .running frame⟩ =
      ⟨⟨scene.waiting, t.overlay, scene.cache⟩, .halting t.frame halt⟩ := by
  simp only [next, step, stepFrame, fetched, EStateM.run, ran]

variable {waiting : List Suspended} {overlay : Overlay} {cache : JumpCache}
  {continuation : Continuation} {result : Result}

theorem next_resumed {frame' : Frame} (ready : resume frame continuation result = .ok frame') :
    next ctx ⟨⟨⟨frame, continuation⟩ :: waiting, overlay, cache⟩, .returning result⟩ =
      ⟨⟨waiting, overlay, cache⟩, .running frame'⟩ := by
  simp only [next, step, stepReturn, ready]

theorem next_overfull {cause : Trap} (failed : resume frame continuation result = .error cause) :
    next ctx ⟨⟨⟨frame, continuation⟩ :: waiting, overlay, cache⟩, .returning result⟩ =
      ⟨⟨waiting, overlay, cache⟩, .halting frame (.trap cause)⟩ := by
  simp only [next, step, stepReturn, failed]

end Kinds

/-! ## What opening, closing and resuming leave alone -/

/-- A frame is prepared by at most a transfer. -/
theorem prepare_eq_ok {host : Host} {overlay prepared : Overlay} {params : Params}
    (ready : prepare host overlay params = .ok prepared) :
    prepared = overlay ∨
      overlay.transfer host params.sender params.address params.value = .ok prepared := by
  unfold prepare at ready
  split at ready
  · cases ready
  · split at ready
    · cases ready
      exact Or.inl rfl
    · cases ready
      exact Or.inl rfl
    · exact Or.inr ready

theorem outer_prepare {host : Host} {overlay prepared : Overlay} {params : Params}
    (ready : prepare host overlay params = .ok prepared) : prepared.outer = overlay.outer := by
  rcases prepare_eq_ok ready with rfl | paid
  · rfl
  · exact Overlay.outer_transfer paid

/-- A frame that halted is settled by at most the deposit of its code. -/
theorem settle_eq {schedule : Schedule} {params : Params} {overlay settled : Overlay}
    {result result' : Result} (ended : settle schedule params overlay result = (result', settled)) :
    (settled = overlay ∧ (result' = result ∨ result' = .outOfGas)) ∨
      ∃ data gas, result = .done data gas ∧
        result' = .done data (gas - schedule.depositCost data.length) ∧
        settled = overlay.setCode params.address data := by
  unfold settle at ended
  split at ended
  · cases result with
    | done data gas =>
        simp only [deposit] at ended
        split at ended
        · cases ended
          exact Or.inl ⟨rfl, Or.inr rfl⟩
        · cases ended
          exact Or.inr ⟨data, gas, rfl, rfl, rfl⟩
    | _ =>
        cases ended
        exact Or.inl ⟨rfl, Or.inl rfl⟩
  · cases ended
    exact Or.inl ⟨rfl, Or.inl rfl⟩

theorem outer_settle {schedule : Schedule} {params : Params} {overlay settled : Overlay}
    {result result' : Result} (ended : settle schedule params overlay result = (result', settled)) :
    settled.outer = overlay.outer := by
  rcases settle_eq ended with ⟨rfl, _⟩ | ⟨data, gas, _, _, rfl⟩
  · rfl
  · rfl

/-- A waiting frame that takes over a result is still the same activation, and it has gained no
more gas than the result had left. -/
theorem resume_eq_ok {frame frame' : Frame} {continuation : Continuation} {result : Result}
    (ready : resume frame continuation result = .ok frame') :
    frame.Continues frame' ∧ frame'.gas ≤ frame.gas + result.gasLeft := by
  have back : Gas.takeBack frame.gas result.gasLeft ≤ frame.gas + result.gasLeft :=
    Quantity.addSat_le _ _
  cases continuation with
  | call offset size =>
      simp only [resume, bind, Except.bind] at ready
      split at ready
      · cases ready
      · cases ready
        exact ⟨⟨rfl, rfl, rfl, rfl⟩, back⟩
  | create address =>
      simp only [resume, bind, Except.bind] at ready
      split at ready
      · cases ready
      · cases ready
        exact ⟨⟨rfl, rfl, rfl, rfl⟩, back⟩

/-! ## Runs that return -/

theorem result?_eq_some {m : Machine} {result : Result} :
    m.result? = some result ↔ m.control = .returning result ∧ m.waiting = [] := by
  obtain ⟨⟨waiting, overlay, cache⟩, control⟩ := m
  cases control with
  | returning other => cases waiting <;> simp [result?]
  | _ => simp [result?]

/-- A result that nobody waits for stays. -/
theorem exec_of_result {ctx : Context} {m : Machine} {result : Result}
    (ended : m.result? = some result) (n : Nat) : exec ctx n m = m := by
  obtain ⟨⟨waiting, overlay, cache⟩, control⟩ := m
  obtain ⟨returns, alone⟩ := result?_eq_some.1 ended
  cases returns
  cases alone
  induction n with
  | zero => rfl
  | succ n ih => rw [exec_succ, ih]; rfl

/-- A run comes to one result only. -/
theorem exec_eq_of_result {ctx : Context} {m : Machine} {n k : Nat} {result result' : Result}
    (ended : (exec ctx n m).result? = some result)
    (ended' : (exec ctx k m).result? = some result') : exec ctx n m = exec ctx k m := by
  rcases Nat.le_total n k with le | le
  · obtain ⟨rest, rfl⟩ := Nat.exists_eq_add_of_le le
    rw [exec_add, exec_of_result ended]
  · obtain ⟨rest, rfl⟩ := Nat.exists_eq_add_of_le le
    rw [exec_add, exec_of_result ended']

section Observed

variable {σ : Type} {ctx : Context} {observe : σ → Event → σ}

/-- A run that returns has come to a machine with a result. -/
theorem run_eq_some {fuel : Nat} {m final : Machine} {seen seen' : σ} {result : Result}
    (returned : run ctx observe fuel m seen = some (result, final, seen')) :
    ∃ n, exec ctx n m = final ∧ final.result? = some result := by
  induction fuel generalizing m seen with
  | zero => cases returned
  | succ fuel ih =>
      unfold run at returned
      cases ended : m.result? with
      | some other =>
          rw [ended] at returned
          cases returned
          exact ⟨0, rfl, ended⟩
      | none =>
          rw [ended] at returned
          obtain ⟨n, reached, final⟩ := ih returned
          exact ⟨n + 1, reached, final⟩

/-- A machine that gets to a result within the bound returns it to any observer. -/
theorem run_isSome {fuel n : Nat} {m : Machine} (seen : σ) (enough : n < fuel)
    (ends : (exec ctx n m).result?.isSome) : (run ctx observe fuel m seen).isSome := by
  induction fuel generalizing m n seen with
  | zero => exact absurd enough (Nat.not_lt_zero n)
  | succ fuel ih =>
      unfold run
      cases ended : m.result? with
      | some result => rfl
      | none =>
          cases n with
          | zero => rw [exec_zero, ended] at ends; cases ends
          | succ n => exact ih _ (Nat.lt_of_succ_lt_succ enough) ends

/-- Given bound enough, the machine that a run ends at is what is returned. -/
theorem run_of_result {n : Nat} {m : Machine} {result : Result} (seen : σ)
    (ended : (exec ctx n m).result? = some result) :
    ∃ seen', run ctx observe (n + 1) m seen = some (result, exec ctx n m, seen') := by
  obtain ⟨⟨other, final, seen'⟩, returned⟩ := Option.isSome_iff_exists.1
    (run_isSome seen (Nat.lt_succ_self n) (Option.isSome_of_eq_some ended))
  obtain ⟨k, rfl, ended'⟩ := run_eq_some returned
  rw [exec_eq_of_result ended' ended] at returned ended'
  rw [ended] at ended'
  cases ended'
  exact ⟨seen', returned⟩

/-- Noting missing prices changes nothing where none is missing. -/
theorem foldl_notePrices {events : List Event} (priced : .unpriced ∉ events) (seen : σ)
    (missing : Bool) :
    events.foldl (notePrices observe) (seen, missing) = (events.foldl observe seen, missing) := by
  induction events generalizing seen with
  | nil => rfl
  | cons event rest ih =>
      obtain ⟨other, others⟩ := not_or.1 (mt List.mem_cons.2 priced)
      have kept : notePrices observe (seen, missing) event = (observe seen event, missing) := by
        rw [notePrices, beq_eq_false_iff_ne.2 (Ne.symm other), Bool.or_false]
      rw [List.foldl_cons, kept, ih others, List.foldl_cons]

theorem run_notePrices (priced : ∀ m, .unpriced ∉ told ctx m) (fuel : Nat) (m : Machine) (seen : σ)
    (missing : Bool) :
    run ctx (notePrices observe) fuel m (seen, missing) =
      (run ctx observe fuel m seen).map fun r => (r.1, r.2.1, r.2.2, missing) := by
  induction fuel generalizing m seen with
  | zero => rfl
  | succ fuel ih =>
      unfold run
      cases m.result? with
      | some result => rfl
      | none =>
          show run ctx (notePrices observe) fuel (next ctx m)
            ((told ctx m).foldl (notePrices observe) (seen, missing)) = _
          rw [foldl_notePrices (priced m), ih]
          rfl

end Observed

end Machine

/-- Whether a frame may be the outermost one of a transaction. -/
def Params.outermost (params : Params) : Bool :=
  params.kind == .call .call || params.kind.isCreate

section Executed

variable {σ : Type} {ctx : Context} {observe : σ → Event → σ} {cache cache' : JumpCache}
  {params : Params} {seen seen' : σ} {outcome : Outcome}

theorem executeObserved_eq :
    executeObserved ctx observe cache params seen =
      if params.outermost = true then
        match Machine.run ctx (notePrices observe) (stepBound params.gas) (.start params cache)
          (seen, false) with
        | some (result, m, seen, false) => .ok (⟨result, m.overlay.flatten⟩, m.cache, seen)
        | some (_, _, _, true) => .error .unpriced
        | none => .error .unfinished
      else .error .invalidParams := by
  unfold executeObserved Params.outermost
  cases params.kind with
  | call kind => cases kind <;> rfl
  | create kind => rfl

/-- Where no price is missing, a transaction is refused for its parameters or its length only. -/
theorem executeObserved_of_priced (priced : ∀ m, .unpriced ∉ Machine.told ctx m) :
    executeObserved ctx observe cache params seen =
      if params.outermost = true then
        match Machine.run ctx observe (stepBound params.gas) (.start params cache) seen with
        | some (result, m, seen) => .ok (⟨result, m.overlay.flatten⟩, m.cache, seen)
        | none => .error .unfinished
      else .error .invalidParams := by
  rw [executeObserved_eq, Machine.run_notePrices priced]
  cases Machine.run ctx observe (stepBound params.gas) (.start params cache) seen <;> rfl

/-- A transaction with an outcome has come from its outermost frame to a machine with that
result.  Its effects are those of all scopes together, and the cache is handed back. -/
theorem executeObserved_ran
    (ran : executeObserved ctx observe cache params seen = .ok (outcome, cache', seen')) :
    params.outermost = true ∧
      ∃ n, (Machine.exec ctx n (.start params cache)).result? = some outcome.result ∧
        outcome.effects = (Machine.exec ctx n (.start params cache)).overlay.flatten ∧
        cache' = (Machine.exec ctx n (.start params cache)).cache := by
  rw [executeObserved_eq] at ran
  by_cases outermost : params.outermost = true
  · rw [if_pos outermost] at ran
    split at ran
    case h_1 returned =>
        cases ran
        obtain ⟨n, reached, ended⟩ := Machine.run_eq_some returned
        exact ⟨outermost, n, by rw [reached]; exact ended, by rw [reached], by rw [reached]⟩
    all_goals cases ran
  · rw [if_neg outermost] at ran
    cases ran

theorem executeObserved_eq_ok
    (ran : executeObserved ctx observe cache params seen = .ok (outcome, cache', seen')) :
    ∃ n, (Machine.exec ctx n (.start params cache)).result? = some outcome.result ∧
      outcome.effects = (Machine.exec ctx n (.start params cache)).overlay.flatten := by
  obtain ⟨-, n, ended, effects, -⟩ := executeObserved_ran ran
  exact ⟨n, ended, effects⟩

end Executed

/-- Running a transaction unobserved is a special case. -/
theorem execute_eq_ok {ctx : Context} {params : Params} {outcome : Outcome}
    (ran : execute ctx params = .ok outcome) :
    ∃ cache, executeObserved ctx (fun _ _ => ()) ∅ params () = .ok (outcome, cache, ()) := by
  unfold execute at ran
  cases observed : executeObserved ctx (fun _ _ => ()) ∅ params () with
  | error refusal => rw [observed] at ran; cases ran
  | ok final =>
      obtain ⟨outcome', cache, _⟩ := final
      rw [observed] at ran
      cases ran
      exact ⟨cache, rfl⟩

end EvmLedger.Vm
