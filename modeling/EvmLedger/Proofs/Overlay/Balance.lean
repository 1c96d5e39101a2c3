/-
# EvmLedger.Proofs.Overlay.Balance -- what accounts hold together

A scope holds the last value of a balance and not a difference, so what accounts
hold together is a sum over what is read (`heldBy`).  `heldBy_setBalance` says
what one write does to it: the new value comes in and the value that was read
before goes out.  A transfer is two such writes and keeps the sum
(`heldBy_transfer`); handing funds to the account that has them is one, and takes
them out (`heldBy_setBalance_zero_le`).

`heldBy` reads a list of scopes, because closing a scope makes an enclosing one
current.  A scope that is merged into the next one is read as before
(`heldBy_merge`), and a scope without balances is read through
(`heldBy_empty`).
-/
import EvmLedger.Proofs.Overlay
import Mathlib.Algebra.BigOperators.Group.Finset.Basic
import Mathlib.Algebra.Order.BigOperators.Group.Finset

namespace EvmLedger.Vm

set_option autoImplicit false

/-- The balance of an account in the innermost scope that holds it. -/
def balanceIn? (scopes : List Effects) (address : Address) : Option Word :=
  scopes.findSome? fun e => e.balances[address]?

/-- What some accounts hold together, read through a list of scopes over a host. -/
def heldBy (host : Host) (accounts : Finset Address) (scopes : List Effects) : Nat :=
  ∑ a ∈ accounts, ((balanceIn? scopes a).getD (host.balance a)).toNat

variable {host : Host} {accounts : Finset Address}

theorem heldBy_congr {scopes scopes' : List Effects}
    (same : ∀ a, balanceIn? scopes' a = balanceIn? scopes a) :
    heldBy host accounts scopes' = heldBy host accounts scopes := by
  unfold heldBy
  refine Finset.sum_congr rfl fun a _ => ?_
  rw [same a]

theorem heldBy_merge (parent child : Effects) (rest : List Effects) :
    heldBy host accounts (parent.merge child :: rest) =
      heldBy host accounts (child :: parent :: rest) := by
  refine heldBy_congr fun a => ?_
  simp only [balanceIn?, List.findSome?_cons, Effects.merge, Std.ExtTreeMap.getElem?_union]
  cases child.balances[a]? with
  | some value => rfl
  | none => rfl

theorem heldBy_empty (scopes : List Effects) :
    heldBy host accounts (.empty :: scopes) = heldBy host accounts scopes := by
  refine heldBy_congr fun a => ?_
  simp [balanceIn?, Effects.empty]

namespace Overlay

variable {o o' moved : Overlay}

/-- The balance of an account, if a scope holds it. -/
def balance? (o : Overlay) (address : Address) : Option Word := balanceIn? o.scopes address

theorem balance?_isSome_of_mem {address : Address} (written : address ∈ o.current.balances) :
    (o.balance? address).isSome := by
  have here : (o.current.balances[address]?).isSome :=
    Std.ExtTreeMap.isSome_getElem?_iff_mem.2 written
  unfold balance? balanceIn?
  rw [scopes_eq, List.findSome?_cons_of_isSome]
  · exact here
  · exact here

/-- Writes of other kinds change no balance. -/
theorem heldBy_of_balances (outer : o'.outer = o.outer)
    (balances : o'.current.balances = o.current.balances) :
    heldBy host accounts o'.scopes = heldBy host accounts o.scopes := by
  refine heldBy_congr fun a => ?_
  simp only [balanceIn?, scopes_eq, outer, List.findSome?_cons, balances]

/-! ## Writes of balances -/

theorem balance?_setBalance (o : Overlay) (address other : Address) (value : Word) :
    (o.setBalance address value).balance? other =
      if other = address then some value else o.balance? other := by
  unfold balance? balanceIn?
  rw [scopes_eq, scopes_eq, outer_setBalance]
  by_cases same : other = address
  · subst same
    simp [setBalance, update]
  · have apart : compare address other ≠ .eq := fun equal =>
      same (Std.LawfulEqOrd.eq_of_compare equal).symm
    simp [setBalance, update, List.findSome?_cons, Std.ExtTreeMap.getElem?_insert, apart, same]

theorem written_setBalance {address other : Address} {value : Word}
    (written : ((o.setBalance address value).balance? other).isSome) :
    other = address ∨ (o.balance? other).isSome := by
  rw [balance?_setBalance] at written
  by_cases same : other = address
  · exact Or.inl same
  · rw [if_neg same] at written
    exact Or.inr written

theorem balance_setBalance (host : Host) (o : Overlay) (address other : Address) (value : Word) :
    (o.setBalance address value).balance host other =
      if other = address then value else o.balance host other := by
  show ((o.setBalance address value).balance? other).getD (host.balance other) = _
  rw [balance?_setBalance]
  split
  · rfl
  · rfl

/-- A write brings its value into the sum and takes out the one that it replaces. -/
theorem heldBy_setBalance {address : Address} (counted : address ∈ accounts) (value : Word) :
    heldBy host accounts (o.setBalance address value).scopes + (o.balance host address).toNat =
      heldBy host accounts o.scopes + value.toNat := by
  have others : ∑ a ∈ accounts.erase address, ((o.setBalance address value).balance host a).toNat =
      ∑ a ∈ accounts.erase address, (o.balance host a).toNat := by
    refine Finset.sum_congr rfl fun a member => ?_
    rw [balance_setBalance, if_neg (Finset.ne_of_mem_erase member)]
  have after := Finset.add_sum_erase accounts
    (fun a => ((o.setBalance address value).balance host a).toNat) counted
  have before := Finset.add_sum_erase accounts (fun a => (o.balance host a).toNat) counted
  simp only [balance_setBalance, if_true] at after others
  show ∑ a ∈ accounts, ((o.setBalance address value).balance host a).toNat + _ =
    ∑ a ∈ accounts, (o.balance host a).toNat + _
  simp only [balance_setBalance]
  omega

/-- Taking the funds of an account away adds nothing, whether the account counts or not. -/
theorem heldBy_setBalance_zero_le (address : Address) :
    heldBy host accounts (o.setBalance address 0).scopes ≤ heldBy host accounts o.scopes := by
  refine Finset.sum_le_sum fun a _ => ?_
  show ((o.setBalance address 0).balance host a).toNat ≤ (o.balance host a).toNat
  rw [balance_setBalance]
  split
  · exact Nat.zero_le _
  · exact Nat.le_refl _

/-- A transfer between accounts that count keeps what they hold together. -/
theorem heldBy_transfer {payer payee : Address} {value : Word}
    (paid : o.transfer host payer payee value = .ok moved)
    (counted : ∀ a, (moved.balance? a).isSome → a ∈ accounts) :
    heldBy host accounts moved.scopes = heldBy host accounts o.scopes := by
  rcases transfer_eq_ok paid with rfl | ⟨apart, enough, fits, rfl⟩
  · rfl
  · have payerCounts : payer ∈ accounts := by
      refine counted payer (balance?_isSome_of_mem ?_)
      simp [setBalance, update]
    have payeeCounts : payee ∈ accounts := by
      refine counted payee (balance?_isSome_of_mem ?_)
      simp [setBalance, update]
    have debit : heldBy host accounts (o.setBalance payer (o.balance host payer - value)).scopes +
        (o.balance host payer).toNat = _ := heldBy_setBalance payerCounts _
    have credit : heldBy host accounts
        ((o.setBalance payer (o.balance host payer - value)).setBalance payee
          (Word.ofNat ((o.balance host payee).toNat + value.toNat))).scopes +
        ((o.setBalance payer (o.balance host payer - value)).balance host payee).toNat = _ :=
      heldBy_setBalance payeeCounts _
    -- the payee's balance is read after the payer's was written
    rw [balance_setBalance, if_neg apart.symm] at credit
    have taken : (o.balance host payer - value).toNat = (o.balance host payer).toNat - value.toNat :=
      BitVec.toNat_sub_of_le enough
    have given : (Word.ofNat ((o.balance host payee).toNat + value.toNat)).toNat =
        (o.balance host payee).toNat + value.toNat := by
      refine Nat.mod_eq_of_lt ?_
      exact Nat.lt_of_le_of_lt fits Word.maximum.isLt
    have enough : value.toNat ≤ (o.balance host payer).toNat := enough
    omega

/-- Handing over funds adds nothing to what the accounts that count hold together, and it keeps it
unless the account keeps its funds from itself. -/
theorem heldBy_handOver {address beneficiary : Address}
    (handed : o.handOver host address beneficiary = .ok moved)
    (counted : ∀ a, (moved.balance? a).isSome → a ∈ accounts) :
    heldBy host accounts moved.scopes ≤ heldBy host accounts o.scopes ∧
      (beneficiary ≠ address →
        heldBy host accounts moved.scopes = heldBy host accounts o.scopes) := by
  rcases handOver_eq_ok handed with ⟨self, rfl | rfl⟩ | paid
  · exact ⟨Nat.le_refl _, fun _ => rfl⟩
  · exact ⟨heldBy_setBalance_zero_le address, fun other => absurd self other⟩
  · have same := heldBy_transfer paid counted
    exact ⟨Nat.le_of_eq same, fun _ => same⟩

/-! ## Scopes that come to the top -/

/-- Of the scopes that may come to the top after a write, only the innermost one is new. -/
theorem suffix_scopes {inner : List Effects} (within : inner <:+ o.scopes) :
    inner <:+ o.outer ∨ inner = o.scopes := by
  rw [scopes_eq, List.suffix_cons_iff] at within
  exact within.symm

/-- A scope that is kept is read as before. -/
theorem heldBy_commit {inner : List Effects} (within : inner <:+ o.commit.scopes) :
    inner <:+ o.outer ∨ heldBy host accounts inner = heldBy host accounts o.scopes := by
  cases nested : o.outer with
  | nil =>
      have root : o.commit = o := by
        unfold commit
        rw [nested]
      rw [root] at within
      rcases suffix_scopes within with outer | rfl
      · rw [nested] at outer
        exact Or.inl outer
      · exact Or.inr rfl
  | cons parent rest =>
      rw [commit_of_outer nested] at within
      rcases suffix_scopes within with outer | rfl
      · exact Or.inl (outer.trans (List.suffix_cons parent rest))
      · right
        rw [scopes_eq, scopes_eq, heldBy_merge, nested]

/-- When a scope is forgotten, what is read was there before, or nothing was written at all. -/
theorem heldBy_discard {inner : List Effects} (within : inner <:+ o.discard.scopes) :
    inner <:+ o.outer ∨ heldBy host accounts inner = heldBy host accounts [] := by
  cases nested : o.outer with
  | nil =>
      have root : o.discard = ⟨.empty, []⟩ := by
        unfold discard
        rw [nested]
      rw [root] at within
      rcases suffix_scopes within with outer | rfl
      · exact Or.inl outer
      · exact Or.inr (heldBy_empty [])
  | cons parent rest =>
      rw [discard_of_outer nested] at within
      exact Or.inl within

end Overlay

end EvmLedger.Vm
