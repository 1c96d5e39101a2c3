/-
# EvmLedger.Proofs.Machine.Gas -- gas is never created

`totalGas` adds up all gas that a run has: that of the frames that are open, of a
frame that is about to be opened, and of a result that is on its way.  No step
adds to it (`totalGas_next_le`), whether gas is forwarded, handed back, paid or
lost.  The one thing that could is the stipend of a call with value, and so the
law asks of the price list that the stipend is covered by the price of such a
call.

`Transition.spends` is the law about one step that this follows from.  It also
says what a step that spends nothing does: it brings the opening and closing of
the frames that are there nearer to its end (`pending`).

Where every power has a price, no step tells that one is missing (`unpriced_not_told`).
-/
import EvmLedger.Proofs.Ledger.Submission
import EvmLedger.Proofs.Machine.Run
import EvmLedger.Proofs.Step.Gas

namespace EvmLedger.Vm

set_option autoImplicit false

/-- The gas of what the machine does next. -/
def Control.gas : Control → Nat
  | .enter params => params.gas
  | .running frame => frame.gas
  | .halting frame _ => frame.gas
  | .returning result => result.gasLeft

/-- The steps that open and close the frame at hand. -/
def Control.pending : Control → Nat
  | .enter _ => 3
  | .running _ => 2
  | .halting .. => 1
  | .returning _ => 0

namespace Machine

/-- The gas of frames that wait. -/
def waitingGas : List Suspended → Nat
  | [] => 0
  | nearest :: rest => nearest.frame.gas + waitingGas rest

/-- All gas of a run. -/
def totalGas (m : Machine) : Nat := m.control.gas + waitingGas m.waiting

/-- The number of steps to the end of a run in which no frame executes another instruction that
goes on. -/
def pending (m : Machine) : Nat :=
  m.control.pending + 3 * m.waiting.length

theorem pending_lt {m m' : Machine} (same : m'.waiting = m.waiting)
    (nearer : m'.control.pending < m.control.pending) : m'.pending < m.pending := by
  unfold pending
  rw [same]
  omega

/-! ## Where gas moves -/

theorem gasLeft_halt (halt : Halt) (gas : Nat) : (halt.result gas).gasLeft ≤ gas := by
  cases halt with
  | stop | ret | revert => exact Nat.le_refl gas
  | outOfGas | trap => exact Nat.zero_le gas

theorem gasLeft_settle {schedule : Schedule} {params : Params} {overlay settled : Overlay}
    {result result' : Result} (ended : settle schedule params overlay result = (result', settled)) :
    result'.gasLeft ≤ result.gasLeft := by
  rcases settle_eq ended with ⟨_, rfl | rfl⟩ | ⟨data, gas, rfl, rfl, _⟩
  · exact Nat.le_refl _
  · exact Nat.zero_le _
  · exact Nat.sub_le gas _

/-! ## One step -/

variable {ctx : Context} {least : Nat}

/-- A step of a run that has not ended spends some amount.  If that is less than the least price
of an instruction, the step brings the end of the frames that are there nearer. -/
theorem Transition.spends (charges : ctx.schedule.Charges least) {m m' : Machine}
    {events : List Event} (moved : Transition ctx m m' events) (busy : m.result? = none) :
    ∃ spent, m'.totalGas + spent ≤ m.totalGas ∧
      (m'.pending < m.pending ∨ least ≤ spent ∧ m'.pending ≤ m.pending + 4) := by
  cases moved with
  | opened prepared => exact ⟨0, Nat.le_refl _, Or.inl (pending_lt rfl (by decide : 2 < 3))⟩
  | rejected refused =>
      refine ⟨0, ?_, Or.inl (pending_lt rfl (by decide : 0 < 3))⟩
      simp only [totalGas, Control.gas, Result.gasLeft]
      omega
  | ended exhausted => exact ⟨0, Nat.le_refl _, Or.inl (pending_lt rfl (by decide : 1 < 2))⟩
  | advanced fetched ran =>
      have paid := (Step.instruction_affords charges _ _).of_ok ran
      refine ⟨least, ?_, Or.inr ⟨Nat.le_refl _, Nat.le_add_right _ 4⟩⟩
      simp only [Flow.gas] at paid
      simp only [totalGas, Control.gas]
      omega
  | suspended fetched ran =>
      have paid := (Step.instruction_affords charges _ _).of_ok ran
      refine ⟨least, ?_, Or.inr ⟨Nat.le_refl _, ?_⟩⟩
      · simp only [Flow.gas] at paid
        simp only [totalGas, Control.gas, waitingGas]
        omega
      · simp only [pending, Control.pending, List.length_cons]
        omega
  | halted fetched ran =>
      have paid := (Step.instruction_affords charges _ _).of_error ran
      refine ⟨0, ?_, Or.inl (pending_lt rfl (by decide : 1 < 2))⟩
      simp only [Nat.add_zero] at paid
      simp only [totalGas, Control.gas]
      omega
  | closed settled =>
      have less := Nat.le_trans (gasLeft_settle settled) (gasLeft_halt _ _)
      refine ⟨0, ?_, Or.inl (pending_lt rfl (by decide : 0 < 1))⟩
      simp only [totalGas, Control.gas]
      omega
  | resumed ready =>
      obtain ⟨_, taken⟩ := resume_eq_ok ready
      refine ⟨0, ?_, Or.inl ?_⟩
      · simp only [totalGas, Control.gas, waitingGas]
        omega
      · simp only [pending, Control.pending, List.length_cons]
        omega
  | overfull failed =>
      refine ⟨0, ?_, Or.inl ?_⟩
      · simp only [totalGas, Control.gas, waitingGas]
        omega
      · simp only [pending, Control.pending, List.length_cons]
        omega
  | idle => cases busy

/-- No step adds gas, also none of a run that has ended. -/
theorem totalGas_next_le (charges : ctx.schedule.Charges 0) (m : Machine) :
    (next ctx m).totalGas ≤ m.totalGas := by
  cases ended : m.result? with
  | some result => exact Nat.le_of_eq (congrArg totalGas (exec_of_result ended 1))
  | none =>
      obtain ⟨spent, covered, _⟩ := (step_transition ctx m).spends charges ended
      omega

theorem totalGas_exec_le (charges : ctx.schedule.Charges 0) (m : Machine) (n : Nat) :
    (exec ctx n m).totalGas ≤ m.totalGas := by
  induction n with
  | zero => exact Nat.le_refl _
  | succ n ih =>
      rw [exec_succ]
      exact Nat.le_trans (totalGas_next_le charges _) ih

/-- Where every power has a price, no step tells that one is missing. -/
theorem unpriced_not_told (priced : ∀ exponent, ctx.schedule.expCost? exponent ≠ none)
    (m : Machine) : .unpriced ∉ told ctx m := by
  obtain ⟨scene, control⟩ := m
  cases control with
  | enter params =>
      have quiet : .unpriced ∉ prepareEvents scene.overlay.enter params := by
        unfold prepareEvents
        split
        · simp
        · exact List.not_mem_nil
      simp only [told, step, openFrame]
      cases prepare ctx.host scene.overlay.enter params with
      | ok overlay => simpa using quiet
      | error cause => simpa using quiet
  | running frame =>
      have quiet : ∀ {t : Exec}, Step.PriceFound ⟨frame, scene.overlay, []⟩ t →
          .unpriced ∉ t.events.reverse :=
        fun found tells => List.not_mem_nil (found (List.mem_reverse.1 tells))
      simp only [told, step, stepFrame]
      cases frame.code[frame.pc]? with
      | none => exact List.not_mem_nil
      | some code =>
          have found := Step.instruction_priceFound priced code ⟨frame, scene.overlay, []⟩
          cases ran : Step.instruction ctx code ⟨frame, scene.overlay, []⟩ with
          | error halt t =>
              simp only [EStateM.run, ran]
              exact quiet (found.of_error ran)
          | ok flow t =>
              simp only [EStateM.run, ran]
              cases flow <;> exact quiet (found.of_ok ran)
  | halting frame halt => simp [told, step, closeFrame]
  | returning result =>
      obtain ⟨waiting, overlay, cache⟩ := scene
      cases waiting with
      | nil => exact List.not_mem_nil
      | cons nearest rest =>
          simp only [told, step, stepReturn]
          cases resume nearest.frame nearest.continuation result with
          | ok frame => exact List.not_mem_nil
          | error cause => exact List.not_mem_nil

/-- The result of a transaction has no more gas than its outermost frame was started with. -/
theorem gasLeft_executeObserved_le (charges : ctx.schedule.Charges 0) {σ : Type}
    {observe : σ → Event → σ} {cache cache' : JumpCache} {params : Params} {seen seen' : σ}
    {outcome : Outcome}
    (ran : executeObserved ctx observe cache params seen = .ok (outcome, cache', seen')) :
    outcome.result.gasLeft ≤ params.gas := by
  obtain ⟨n, ended, _⟩ := executeObserved_eq_ok ran
  obtain ⟨returns, alone⟩ := result?_eq_some.1 ended
  have bounded := totalGas_exec_le charges (.start params cache) n
  simp only [totalGas, returns, alone] at bounded
  exact bounded

/-- The gas of a transaction's outermost frame comes out of the limit that it may use. -/
theorem gas_frameFor_le {settings : Settings} {tx : Transaction} {limit gas : Nat}
    (granted : Submission.gasFor settings tx = .ok (limit, gas)) (ledger : Ledger)
    (sender : Address) (code : Option Bytes) :
    (Submission.frameFor ledger tx sender gas code).1.gas ≤ limit := by
  obtain ⟨_, _, covers⟩ := Submission.gasFor_eq_ok granted
  rw [Submission.frameFor_gas]
  exact Nat.le.intro ((Nat.add_comm _ _).trans covers)

/-! ## Whole runs -/

/-- Gas is never created, under any price list that covers the stipend of a call with value.  No
step of the machine adds to the gas of a run, so that at any time it is at most what the outermost
frame was started with; and so what a transaction has left is within its gas and its limit. -/
theorem gas_never_created {schedule : Schedule} (fits : schedule.callStipend < Quantity.bound)
    (covered : schedule.callStipend ≤ schedule.call + schedule.callValueTransfer)
    (env : Env) (maxDepth : Nat) (host : Host) :
    (∀ m, (next ⟨schedule, env, maxDepth, host⟩ m).totalGas ≤ m.totalGas) ∧
      (∀ params cache n,
        (exec ⟨schedule, env, maxDepth, host⟩ n (.start params cache)).totalGas ≤ params.gas) ∧
      (∀ (σ : Type) (observe : σ → Event → σ) (cache cache' : JumpCache) (params : Params)
        (seen seen' : σ) (outcome : Outcome),
        executeObserved ⟨schedule, env, maxDepth, host⟩ observe cache params seen =
          .ok (outcome, cache', seen') →
        outcome.result.gasLeft ≤ params.gas) ∧
      ∀ (settings : Settings) (tx : Transaction) (ledger : Ledger) (sender : Address)
        (code : Option Bytes) (limit gas : Nat) (outcome : Outcome),
        Submission.gasFor settings tx = .ok (limit, gas) →
        execute ⟨schedule, env, maxDepth, host⟩
          (Submission.frameFor ledger tx sender gas code).1 = .ok outcome →
        outcome.result.gasLeft ≤ limit := by
  have charges := Schedule.charges_zero fits covered
  refine ⟨?_, ?_, ?_, ?_⟩
  · intro m
    exact totalGas_next_le charges m
  · intro params cache n
    exact totalGas_exec_le charges (.start params cache) n
  · intro σ observe cache cache' params seen seen' outcome ran
    exact gasLeft_executeObserved_le charges ran
  · intro settings tx ledger sender code limit gas outcome granted ran
    obtain ⟨cache, observed⟩ := execute_eq_ok ran
    have left := gasLeft_executeObserved_le charges observed
    exact Nat.le_trans left (gas_frameFor_le granted ledger sender code)

/-- A machine about to call with value and without gas of its own to forward. -/
def paying : Machine :=
  ⟨⟨[], {}, ∅⟩, .running
    { params :=
        { address := .zero
          sender := .zero
          origin := .zero
          gas := 10000
          code := [0xf1] }
      code := #[0xf1]
      jumps := .ofCode [0xf1]
      depth := 0
      pc := 0
      stack := ⟨[0, 7, 1, 0, 0, 0, 0]⟩
      memory := {}
      gas := 10000
      returnData := [] }⟩

/-- The callee has the stipend, and it is paid for. -/
theorem gas_never_created_stipend :
    Schedule.frontier.callStipend < Quantity.bound ∧
      Schedule.frontier.callStipend ≤
        Schedule.frontier.call + Schedule.frontier.callValueTransfer ∧
      (next (.uniform 1) paying).control.gas = 2300 ∧
      (next (.uniform 1) paying).totalGas ≤ 10000 := by
  refine ⟨by decide, by decide, by decide +kernel, ?_⟩
  exact (gas_never_created (by decide) (by decide) _ _ _).1 paying

end Machine

end EvmLedger.Vm
