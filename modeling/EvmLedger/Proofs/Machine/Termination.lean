/-
# EvmLedger.Proofs.Machine.Termination -- no program runs forever

Under the Frontier prices an instruction that goes on, or that starts a frame,
costs at least one unit, the stipend of a call with value included.  The
instructions that are free end their frame, and a frame can be opened, closed and
resumed only once.  `weight` makes one measure of that: five times the gas of the
run and the steps that the opening and closing of the frames that are there still
takes.  A frame that is started adds four such steps and its instruction takes
five away, so the measure falls at every step until the run has ended.

The bound on the number of steps that `executeObserved` sets is never met, and no price
is missing.
-/
import EvmLedger.Proofs.Machine.Gas

namespace EvmLedger.Vm.Machine

set_option autoImplicit false

/-- What falls at every step of a run under prices without free instructions. -/
def weight (m : Machine) : Nat := 5 * m.totalGas + m.pending

variable {ctx : Context}

theorem weight_next_lt (charges : ctx.schedule.Charges 1) {m : Machine}
    (busy : m.result? = none) : (next ctx m).weight < m.weight := by
  obtain ⟨spent, covered, nearer⟩ := (step_transition ctx m).spends charges busy
  unfold weight
  rcases nearer with less | ⟨paid, more⟩
  · omega
  · omega

/-- A machine has ended when it has taken as many steps as it weighs. -/
theorem exists_result (charges : ctx.schedule.Charges 1) (m : Machine) :
    ∃ n ≤ m.weight, (exec ctx n m).result?.isSome := by
  induction heavy : m.weight using Nat.strongRecOn generalizing m with
  | ind w ih =>
      cases ended : m.result? with
      | some result => exact ⟨0, Nat.zero_le _, by rw [exec_zero, ended]; rfl⟩
      | none =>
          have lighter := weight_next_lt charges ended
          rw [heavy] at lighter
          obtain ⟨n, within, ends⟩ := ih _ lighter (next ctx m) rfl
          exact ⟨n + 1, by omega, ends⟩

theorem weight_start (params : Params) (cache : JumpCache) :
    (start params cache).weight = 5 * params.gas + 3 := rfl

/-- Under the Frontier prices every run ends, whatever the code, the block, the host and the limit
on nesting are.  Every step before the end lowers the weight, which a run starts with in
proportion to its gas; so a run returns within that bound, to any observer.  No transaction is left
unfinished, and every one that may be executed has an outcome. -/
theorem frontier_terminates (env : Env) (maxDepth : Nat) (host : Host) :
    (∀ m : Machine, m.result? = none →
        (next ⟨.frontier, env, maxDepth, host⟩ m).weight < m.weight) ∧
      (∀ params cache, ∃ n ≤ 5 * params.gas + 3,
        (exec ⟨.frontier, env, maxDepth, host⟩ n (.start params cache)).result?.isSome) ∧
      (∀ (σ : Type) (observe : σ → Event → σ) (params : Params) (cache : JumpCache) (seen : σ)
        (fuel : Nat), 5 * params.gas + 3 < fuel →
        (run ⟨.frontier, env, maxDepth, host⟩ observe fuel (.start params cache) seen).isSome) ∧
      (∀ (σ : Type) (observe : σ → Event → σ) (params : Params) (cache : JumpCache) (seen : σ),
        executeObserved ⟨.frontier, env, maxDepth, host⟩ observe cache params seen ≠
          .error .unfinished) ∧
      ∀ (σ : Type) (observe : σ → Event → σ) (params : Params) (cache : JumpCache) (seen : σ),
        params.outermost = true → ∃ final,
          executeObserved ⟨.frontier, env, maxDepth, host⟩ observe cache params seen =
            .ok final := by
  have charges := Schedule.frontier_charges_one
  have ends : ∀ params cache, ∃ n ≤ 5 * params.gas + 3,
      (exec ⟨.frontier, env, maxDepth, host⟩ n (.start params cache)).result?.isSome := by
    intro params cache
    rw [← weight_start params cache]
    exact exists_result charges (.start params cache)
  have returns : ∀ (σ : Type) (observe : σ → Event → σ) (params : Params) (cache : JumpCache)
      (seen : σ) (fuel : Nat), 5 * params.gas + 3 < fuel →
      (run ⟨.frontier, env, maxDepth, host⟩ observe fuel (.start params cache) seen).isSome := by
    intro σ observe params cache seen fuel enough
    obtain ⟨n, within, ended⟩ := ends params cache
    exact run_isSome seen (Nat.lt_of_le_of_lt within enough) ended
  have fits : Schedule.frontier.exp + Schedule.frontier.expByte * 32 < Quantity.bound := by decide
  have priced : ∀ m, .unpriced ∉ told ⟨.frontier, env, maxDepth, host⟩ m :=
    unpriced_not_told (Schedule.expCost?_ne_none fits)
  have succeeds : ∀ (σ : Type) (observe : σ → Event → σ) (params : Params) (cache : JumpCache)
      (seen : σ), params.outermost = true → ∃ final,
      executeObserved ⟨.frontier, env, maxDepth, host⟩ observe cache params seen = .ok final := by
    intro σ observe params cache seen outermost
    have enough : 5 * params.gas + 3 < stepBound params.gas := by
      unfold stepBound
      omega
    obtain ⟨⟨result, m, seen'⟩, returned⟩ := Option.isSome_iff_exists.1
      (returns σ observe params cache seen _ enough)
    rw [executeObserved_of_priced priced, if_pos outermost, returned]
    exact ⟨_, rfl⟩
  refine ⟨fun m busy => weight_next_lt charges busy, ends, returns, ?_, succeeds⟩
  intro σ observe params cache seen unfinished
  by_cases outermost : params.outermost = true
  · obtain ⟨final, returned⟩ := succeeds σ observe params cache seen outermost
    cases unfinished.symm.trans returned
  · rw [executeObserved_of_priced priced, if_neg outermost] at unfinished
    cases unfinished

end EvmLedger.Vm.Machine
