/-
# EvmLedger.Proofs.Ledger.Balance -- balances after writes to a ledger

A balance is found in one of two tables: that of linked accounts, or, for an address
that is no identifier, that of contracts.  Writes and reads take the same way, so what
is written for an address is read there and at no address that does not share its
account (`balance_setBalance`).

`balance_insertAccount` says what a balance is after an account was linked: the account
hides what the contract table holds for its identifier.
-/
import EvmLedger.Proofs.Ledger.Accounts

namespace EvmLedger.Ledger

set_option autoImplicit false

open Vm (Account Effects)

variable {l : Ledger}

/-! ## One write -/

theorem balance_of_linked {address : Address} {account : LinkedAccount}
    (found : l.account? address = some account) : l.balance address = account.balance := by
  unfold balance
  rw [found]

theorem balance_of_unlinked {address : Address} (missing : l.account? address = none) :
    l.balance address = (l.contract address).balance := by
  unfold balance
  rw [missing]

theorem contract_modifyContract (l : Ledger) (address other : Address) (f : Account → Account) :
    (l.modifyContract address f).contract other =
      if other = address then f (l.contract address) else l.contract other := by
  unfold contract modifyContract
  simp only [Std.ExtTreeMap.getElem?_insert, Std.compare_eq_iff_eq, eq_comm (a := address)]
  split
  · rfl
  · rfl

theorem modifyAccount_eq (l : Ledger) (identifier : Address) (f : LinkedAccount → LinkedAccount) :
    ∃ accounts, l.modifyAccount identifier f = { l with accounts := accounts } := by
  unfold modifyAccount
  split
  · exact ⟨l.accounts, rfl⟩
  · split
    · exact ⟨l.accounts, rfl⟩
    · exact ⟨_, rfl⟩

theorem contract_modifyAccount (l : Ledger) (identifier other : Address)
    (f : LinkedAccount → LinkedAccount) :
    (l.modifyAccount identifier f).contract other = l.contract other := by
  obtain ⟨accounts, written⟩ := l.modifyAccount_eq identifier f
  rw [written]
  rfl

theorem balance_setBalance (l : Ledger) (address : Address) (value : Word) {other : Address}
    (apart : l.Shares other address → other = address) :
    (l.setBalance address value).balance other =
      if other = address then value else l.balance other := by
  unfold setBalance
  cases found : l.account? address with
  | some account =>
      have seen := account?_modifyAccount found ({ · with balance := value }) apart
      by_cases same : other = address
      · rw [if_pos same] at seen ⊢
        exact balance_of_linked seen
      · rw [if_neg same] at seen ⊢
        unfold balance
        rw [seen, contract_modifyAccount]
  | none =>
      show (l.modifyContract address ({ · with balance := value })).balance other = _
      have seen := l.contract_modifyContract address other ({ · with balance := value })
      have unlinked : ∀ a, (l.modifyContract address ({ · with balance := value })).account? a =
          l.account? a := fun _ => rfl
      by_cases same : other = address
      · rw [if_pos same] at seen ⊢
        subst same
        rw [balance_of_unlinked ((unlinked other).trans found), seen]
      · rw [if_neg same] at seen ⊢
        unfold balance
        rw [unlinked, seen]

/-- Code and nonces of contracts are no balances. -/
theorem balance_modifyContract (l : Ledger) (address : Address) {f : Account → Account}
    (keeps : ∀ contract, (f contract).balance = contract.balance) :
    (l.modifyContract address f).balance = l.balance := by
  funext other
  have seen := l.contract_modifyContract address other f
  have linked : (l.modifyContract address f).account? other = l.account? other := rfl
  unfold balance
  rw [linked, seen]
  by_cases same : other = address
  · rw [if_pos same, keeps, same]
  · rw [if_neg same]

theorem contract_suicide (l : Ledger) (address other : Address) :
    (l.suicide address).contract other = if other = address then {} else l.contract other := by
  unfold contract suicide
  simp only [Std.ExtTreeMap.getElem?_erase, Std.compare_eq_iff_eq, eq_comm (a := address)]
  split
  · rfl
  · rfl

/-- A contract that goes takes its balance along; a linked account stays. -/
theorem balance_suicide (l : Ledger) (address other : Address) :
    (l.suicide address).balance other =
      if other = address ∧ l.account? other = none then 0 else l.balance other := by
  have linked : (l.suicide address).account? other = l.account? other := rfl
  unfold balance
  rw [linked, contract_suicide, apply_ite Account.balance]
  cases l.account? other with
  | some account => simp
  | none => simp

theorem balance_setAccountNonce (l : Ledger) (identifier : Address) (nonce : Nat) :
    (l.setAccountNonce identifier nonce).balance = l.balance := by
  funext address
  have same : l.SameAccounts (·.balance) (l.setAccountNonce identifier nonce) :=
    l.sameAccounts_modifyAccount identifier fun _ => rfl
  have unpaid : (l.setAccountNonce identifier nonce).contract address = l.contract address :=
    l.contract_modifyAccount identifier address _
  unfold balance
  rw [unpaid]
  cases found : l.account? address with
  | none =>
      have still := same.isSome_account? address
      rw [found, Option.isSome_none, Option.isSome_eq_false_iff, Option.isNone_iff_eq_none] at still
      rw [still]
  | some account =>
      obtain ⟨account', found', paid⟩ := same.exists_account? found
      rw [found']
      exact paid

/-- A new account is read through its identifier, whatever was read there before. -/
theorem balance_insertAccount (identified : l.Identified) (account : LinkedAccount)
    (free_name : l.accountByName? account.name = none) (other : Address) :
    (l.insertAccount account).balance other =
      if other = account.identifier then account.balance else l.balance other := by
  have unwritten : (l.insertAccount account).contract other = l.contract other := rfl
  have seen : (l.insertAccount account).account? other =
      if other = account.identifier then some account else l.account? other := by
    unfold account? insertAccount
    simp only [Std.ExtTreeMap.getElem?_insert, Std.compare_eq_iff_eq,
      eq_comm (a := account.identifier)]
    by_cases same : other = account.identifier
    · rw [if_pos same, if_pos same]
      exact if_pos rfl
    · rw [if_neg same, if_neg same]
      cases found : l.identifiers[other]? with
      | none => rfl
      | some name =>
          refine if_neg fun same_name => ?_
          obtain ⟨_, by_name, _⟩ := identified other name found
          rw [← same_name] at by_name
          cases free_name.symm.trans by_name
  by_cases same : other = account.identifier
  · rw [if_pos same] at seen ⊢
    exact balance_of_linked seen
  · rw [if_neg same] at seen ⊢
    unfold balance
    rw [seen, unwritten]

end EvmLedger.Ledger
