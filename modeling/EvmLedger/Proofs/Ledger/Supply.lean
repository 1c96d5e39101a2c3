/-
# EvmLedger.Proofs.Ledger.Supply -- what all accounts hold together

The supply of a ledger is the sum of all balances, each read from the table that it is
in.  No call makes it grow (`Accounted`): the frames of a transaction move what there
is, and what they have come to is persisted balance by balance; after that a contract
that was destroyed can only take its balance along.

Two things make the supply shrink.  Frames that survive may destroy accounts.  And an
account that is linked starts without funds, so it hides what was paid to its identifier
before (`supply_hidden`).
-/
import EvmLedger.Proofs.Ledger.History
import EvmLedger.Proofs.Ledger.Persistence
import EvmLedger.Proofs.Machine.Holdings
import EvmLedger.Proofs.Machine.Survival

namespace EvmLedger

set_option autoImplicit false

open Vm (Deed Effects Params heldBy)

namespace Ledger

variable {l : Ledger}

/-- What all addresses hold together. -/
noncomputable def supply (l : Ledger) : Nat :=
  ∑ a, (l.balance a).toNat

/-- Without any scope over it, what is held on the host is read. -/
theorem heldBy_host (l : Ledger) : heldBy l.host Finset.univ [] = l.supply :=
  Finset.sum_congr rfl fun _ _ => rfl

theorem supply_setAccountNonce (l : Ledger) (identifier : Address) (nonce : Nat) :
    (l.setAccountNonce identifier nonce).supply = l.supply := by
  unfold supply
  rw [balance_setAccountNonce]

/-- A new account without funds takes the place of what was read for its identifier. -/
theorem supply_insertAccount (identified : l.Identified) {name : String}
    (free_name : l.accountByName? name = none) (identifier : Address) :
    (l.insertAccount ⟨name, identifier, 0, 0⟩).supply + (l.balance identifier).toNat =
      l.supply := by
  have seen := balance_insertAccount identified ⟨name, identifier, 0, 0⟩ free_name
  have others : ∑ a ∈ Finset.univ.erase identifier,
      ((l.insertAccount ⟨name, identifier, 0, 0⟩).balance a).toNat =
        ∑ a ∈ Finset.univ.erase identifier, (l.balance a).toNat := by
    refine Finset.sum_congr rfl fun a member => ?_
    rw [seen, if_neg (Finset.ne_of_mem_erase member)]
  have own : ((l.insertAccount ⟨name, identifier, 0, 0⟩).balance identifier).toNat = 0 := by
    rw [seen, if_pos rfl]
    rfl
  have after := Finset.add_sum_erase Finset.univ
    (fun a => ((l.insertAccount ⟨name, identifier, 0, 0⟩).balance a).toNat)
    (Finset.mem_univ identifier)
  have before := Finset.add_sum_erase Finset.univ (fun a => (l.balance a).toNat)
    (Finset.mem_univ identifier)
  simp only [own, others] at after
  simp only [supply, ← after, ← before]
  omega

/-- The effects of a run leave what is read through them, or less where contracts are destroyed. -/
theorem supply_apply (identified : l.Identified) (e : Effects) :
    (l.apply e).supply ≤ heldBy l.host Finset.univ [e] ∧
      ((∀ a, a ∉ e.suicides) → (l.apply e).supply = heldBy l.host Finset.univ [e]) := by
  have read : ∀ a, Vm.balanceIn? [e] a = e.balances[a]? := by simp [Vm.balanceIn?]
  constructor
  · refine Finset.sum_le_sum fun a _ => ?_
    rw [balance_apply identified, read]
    split
    · exact Nat.zero_le _
    · exact Nat.le_refl _
  · intro none_destroyed
    refine Finset.sum_congr rfl fun a _ => ?_
    rw [balance_apply identified, read, if_neg fun destroyed => none_destroyed a destroyed.1]
    rfl

end Ledger

namespace Submission

/-- The outermost frame of a call, when it runs as the account with an identifier. -/
def Call.frame? (settings : Settings) (l : Ledger) (sender : Address) : Call → Option Params
  | .createAccount .. => none
  | .submit _ request => Submission.frame? settings request none l sender
  | .executeCode _ code request => Submission.frame? settings request (some code) l sender

/-- An account was destroyed for a call, by a frame that survived. -/
def Served.Destroys (settings : Settings) (served : Served) : Prop :=
  ∃ receipt params n account beneficiary, served.outcome = .ok (.accepted receipt) ∧
    served.call.frame? settings served.before receipt.sender = some params ∧
    Deed.destroyed account beneficiary ∈
      Vm.Machine.survivingDeeds (contextFor settings served.before) (.start params ∅) n

/-- What one call may do to the supply. -/
structure Served.Accounted (settings : Settings) (served : Served) : Prop where
  bounded : served.after.supply ≤ served.before.supply
  /-- a transaction loses nothing but by the destruction of accounts -/
  kept : ∀ receipt, served.outcome = .ok (.accepted receipt) → ¬served.Destroys settings →
    served.after.supply = served.before.supply
  /-- an account that is linked hides what was read for its identifier -/
  hidden : ∀ identifier, served.outcome = .ok (.linked identifier) →
    served.after.supply + (served.before.balance identifier).toNat = served.before.supply
  /-- a call that fails does nothing -/
  unharmed : ∀ cause, served.outcome = .error cause → served.after.supply = served.before.supply

/-- What a call that is accepted has run. -/
theorem Call.work_ran {settings : Settings} {call : Call} {l l' : Ledger} {receipt : Receipt}
    (done : call.work settings l = .ok (.accepted receipt) l') :
    ∃ params outcome nonce, call.frame? settings l receipt.sender = some params ∧
      Vm.execute (contextFor settings l) params = .ok outcome ∧
      l' = (l.apply outcome.effects).setAccountNonce receipt.sender nonce := by
  cases call with
  | createAccount name address =>
      obtain ⟨identifier, other, -⟩ := Work.map_eq_ok done
      cases other
  | submit resolve request =>
      obtain ⟨receipt', same, handled⟩ := Work.map_eq_ok done
      cases same
      exact process_ran handled
  | executeCode resolve code request =>
      obtain ⟨receipt', same, handled⟩ := Work.map_eq_ok done
      cases same
      exact process_ran (process_of_processCode handled)

variable {settings : Settings} {l : Ledger}

theorem serve_before (settings : Settings) (l : Ledger) (call : Call) :
    (serve settings l call).before = l := by
  unfold serve
  split
  · rfl
  · rfl

theorem accounted_accept (identified : l.Identified) {params : Params} {outcome : Vm.Outcome}
    (ran : Vm.execute (contextFor settings l) params = .ok outcome) (sender : Address)
    (nonce : Nat) :
    ((l.apply outcome.effects).setAccountNonce sender nonce).Identified ∧
      ((l.apply outcome.effects).setAccountNonce sender nonce).supply ≤ l.supply ∧
      ((∀ n account beneficiary, Deed.destroyed account beneficiary ∉
          Vm.Machine.survivingDeeds (contextFor settings l) (.start params ∅) n) →
        ((l.apply outcome.effects).setAccountNonce sender nonce).supply = l.supply) := by
  have paid : (l.apply outcome.effects).Identified :=
    identified.of_sameAccounts ((l.sameAccounts_apply outcome.effects).map Prod.fst)
  obtain ⟨cache, observed⟩ := Vm.execute_eq_ok ran
  have run := Vm.Machine.holdings_effects observed
  change heldBy l.host Finset.univ [outcome.effects] ≤ heldBy l.host Finset.univ [] ∧
    ((∀ a, a ∉ outcome.effects.suicides) →
      heldBy l.host Finset.univ [outcome.effects] = heldBy l.host Finset.univ []) at run
  rw [Ledger.heldBy_host] at run
  obtain ⟨held, held_all⟩ := run
  obtain ⟨left, left_all⟩ := Ledger.supply_apply identified outcome.effects
  refine ⟨paid.of_sameAccounts (Ledger.sameAccounts_setAccountNonce _ _ _), ?_, fun spared => ?_⟩
  · rw [Ledger.supply_setAccountNonce]
    exact left.trans held
  · have none_destroyed : ∀ a, a ∉ outcome.effects.suicides := by
      intro a destroyed
      obtain ⟨n, beneficiary, survived⟩ := (Vm.Machine.mem_suicides_iff observed a).1 destroyed
      exact spared n a beneficiary survived
    rw [Ledger.supply_setAccountNonce]
    exact (left_all none_destroyed).trans (held_all none_destroyed)

/-- One call, on a ledger where no two identifiers share an account. -/
theorem accounted_serve (settings : Settings) (identified : l.Identified) (call : Call) :
    (serve settings l call).Accounted settings ∧ (serve settings l call).after.Identified := by
  unfold serve
  cases done : (call.work settings).run l with
  | error cause after =>
      obtain rfl := call.work_atomic settings l cause after done
      exact ⟨⟨Nat.le_refl _, nofun, nofun, fun _ _ => rfl⟩, identified⟩
  | ok answer after =>
      cases answer with
      | linked identifier =>
          rcases Call.work_eq_ok done with ⟨name, address, rfl, same, free, rfl⟩ |
            ⟨_, _, _, _, _, _, other, _⟩
          · cases same
            have replaced := Ledger.supply_insertAccount identified free
              (ContractAddress.identifier name address)
            refine ⟨⟨Nat.le.intro replaced, nofun, ?_, nofun⟩, identified.insertAccount free⟩
            rintro _ ⟨⟩
            exact replaced
          · cases other
      | accepted receipt =>
          obtain ⟨params, outcome, nonce, framed, ran, rfl⟩ := Call.work_ran done
          obtain ⟨still, bounded, kept⟩ := accounted_accept identified ran receipt.sender nonce
          refine ⟨⟨bounded, ?_, nofun, nofun⟩, still⟩
          rintro _ ⟨⟩ spared
          refine kept fun n account beneficiary survived => spared ?_
          exact ⟨receipt, params, n, account, beneficiary, rfl, framed, survived⟩

/-- The supply of a ledger never grows, whatever is asked of it.  A transaction that is accepted
keeps it unless a frame that survives destroys an account, and a call that fails keeps it.  An
account that is linked takes away what its identifier had before, and nothing else. -/
theorem supply_never_grows (settings : Settings) (l : Ledger) (calls : List Call)
    (linked : l.WellLinked) :
    (ledgerAfter settings l calls).supply ≤ l.supply ∧
      ∀ served ∈ history settings l calls, served.Accounted settings := by
  have identified := linked.toIdentified
  clear linked
  induction calls generalizing l with
  | nil => exact ⟨Nat.le_refl l.supply, List.forall_mem_nil _⟩
  | cons call calls ih =>
      obtain ⟨accounted, still⟩ := accounted_serve settings identified call
      obtain ⟨bounded, rest⟩ := ih (serve settings l call).after still
      have shrunk := accounted.bounded
      rw [serve_before] at shrunk
      exact ⟨bounded.trans shrunk, List.forall_mem_cons.2 ⟨accounted, rest⟩⟩

/-- A ledger in which alice is linked and has nine units. -/
def wealthy : Ledger :=
  ({} : Ledger).insertAccount ⟨"alice", alice, 0, 9⟩

/-- Alice pays five units to the account 7 and then makes it destroy itself for its own benefit. -/
def wasting : List Call :=
  let payment : Transaction := { selfCall 1 {} with action := .call ⟨7⟩, value := 5 }
  let order : Transaction := { selfCall 2 {} with action := .call ⟨7⟩ }
  [.submit recovery { raw := payment.encode, claimed := some alice, caller := some "alice" },
    .executeCode recovery [0x30, 0xff]
      { raw := order.encode, claimed := some alice, caller := some "alice" }]

/-- The five units are gone. -/
theorem supply_never_grows_wasting :
    wealthy.WellLinked ∧
      ((history { allowRawCode := true } wealthy wasting).map (·.outcome.isOk)) = [true, true] ∧
      (ledgerAfter { allowRawCode := true } wealthy wasting).balance alice = 4 ∧
      (ledgerAfter { allowRawCode := true } wealthy wasting).balance ⟨7⟩ = 0 ∧
      (ledgerAfter { allowRawCode := true } wealthy wasting).supply ≤ wealthy.supply := by
  have linked : wealthy.WellLinked := Ledger.WellLinked.empty.insertAccount rfl rfl
  refine ⟨linked, by decide +kernel, by decide +kernel, by decide +kernel, ?_⟩
  exact (supply_never_grows { allowRawCode := true } wealthy wasting linked).1

/-- A ledger in which alice is not linked, but five units have been paid to her identifier. -/
def prepaid : Ledger :=
  ({} : Ledger).setBalance alice 5

/-- To link an account is no transaction and destroys nothing, and the supply need not stay. -/
theorem supply_hidden :
    prepaid.WellLinked ∧ prepaid.account? alice = none ∧
      (serve {} prepaid (.createAccount "alice" .zero)).outcome = .ok (.linked alice) ∧
      ¬(serve {} prepaid (.createAccount "alice" .zero)).Destroys {} ∧
      (serve {} prepaid (.createAccount "alice" .zero)).after.supply ≠ prepaid.supply := by
  have linked : prepaid.WellLinked := Ledger.WellLinked.empty.of_sameAccounts
    ((Ledger.sameAccounts_setBalance {} alice 5).map Prod.fst)
  have served : serve {} prepaid (.createAccount "alice" .zero) =
      ⟨.createAccount "alice" .zero, prepaid, .ok (.linked alice),
        prepaid.insertAccount ⟨"alice", alice, 0, 0⟩⟩ := rfl
  have free : prepaid.accountByName? "alice" = none := rfl
  have replaced := Ledger.supply_insertAccount linked.toIdentified free alice
  have five : (prepaid.balance alice).toNat = 5 := by decide +kernel
  rw [served]
  refine ⟨linked, by decide +kernel, rfl, ?_, ?_⟩
  · rintro ⟨receipt, _, _, _, _, never, -⟩
    cases never
  · show (prepaid.insertAccount ⟨"alice", alice, 0, 0⟩).supply ≠ prepaid.supply
    omega

end Submission

end EvmLedger
