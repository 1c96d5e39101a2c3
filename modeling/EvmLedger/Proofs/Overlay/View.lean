/-
# EvmLedger.Proofs.Overlay.View -- what can be seen through the scopes

A program asks an overlay for slots, balances, code, nonces and whether an account
has destroyed itself; the answers together are its `View`.  A view is a record of
functions, so that a law about one write says in a single equation what the write
changes and that it changes nothing else.

Log entries and refunds cannot be seen, and neither can the border between two
scopes: a scope that is opened or kept changes nothing (`view_enter`,
`view_commit`).
-/
import EvmLedger.Proofs.Overlay.Merge
import Mathlib.Logic.Function.Basic

namespace EvmLedger.Vm

set_option autoImplicit false

/-- What can be asked of the world as the machine has left it. -/
structure View where
  slots : Slot → Word
  balances : Address → Word
  codes : Address → Bytes
  nonces : Address → Nat
  /-- the accounts that destroyed themselves -/
  destroyed : Address → Bool

namespace View

/-- The world with another value in one slot. -/
def setSlot (v : View) (slot : Slot) (value : Word) : View :=
  { v with slots := Function.update v.slots slot value }

def setBalance (v : View) (address : Address) (value : Word) : View :=
  { v with balances := Function.update v.balances address value }

def setCode (v : View) (address : Address) (code : Bytes) : View :=
  { v with codes := Function.update v.codes address code }

def setNonce (v : View) (address : Address) (nonce : Nat) : View :=
  { v with nonces := Function.update v.nonces address nonce }

def destroy (v : View) (address : Address) : View :=
  { v with destroyed := Function.update v.destroyed address true }

/-- The world where value has moved, if at all, between two accounts. -/
def MovesBetween (v v' : View) (a b : Address) : Prop :=
  ∃ balances, v' = { v with balances := balances } ∧
    ∀ other, other ≠ a → other ≠ b → balances other = v.balances other

theorem MovesBetween.refl (v : View) (a b : Address) : v.MovesBetween v a b :=
  ⟨v.balances, rfl, fun _ _ _ => rfl⟩

theorem MovesBetween.setBalance {v v' : View} {a b : Address} (moves : v.MovesBetween v' a b)
    {address : Address} (one : address = a ∨ address = b) (value : Word) :
    v.MovesBetween (v'.setBalance address value) a b := by
  obtain ⟨balances, rfl, others⟩ := moves
  refine ⟨Function.update balances address value, rfl, fun other apart apart' => ?_⟩
  have ne : other ≠ address := by
    rintro rfl
    exact one.elim apart apart'
  rw [Function.update_of_ne ne]
  exact others other apart apart'

end View

/-- What can be seen over a host after some effects. -/
def Effects.view (host : Host) (e : Effects) : View where
  slots slot := (e.storage[slot]?).getD (host.slot slot.contract slot.key)
  balances address := (e.balances[address]?).getD (host.balance address)
  codes address := (e.codes[address]?).getD (host.code address)
  nonces address := (e.nonces[address]?).getD (host.nonce address)
  destroyed address := e.suicides.contains address

namespace Overlay

/-- What a program is told when it asks. -/
def view (host : Host) (o : Overlay) : View where
  slots slot := o.storage host slot.contract slot.key
  balances := o.balance host
  codes := o.code host
  nonces := o.nonce host
  destroyed := o.hasSuicided

variable (host : Host) (o : Overlay)

/-- All scopes are seen as one. -/
theorem view_eq_flatten : o.view host = o.flatten.view host := by
  unfold view Effects.view
  congr 1
  · funext slot
    exact storage_eq_flatten host o slot.contract slot.key
  · exact funext (balance_eq_flatten host o)
  · exact funext (code_eq_flatten host o)
  · exact funext (nonce_eq_flatten host o)
  · exact funext (hasSuicided_eq_flatten o)

/-! ## Writes -/

/-- Reading a map after a write, with an answer of one's own where it has none. -/
theorem getD_insert {α β : Type} [Ord α] [Std.TransOrd α] [Std.LawfulEqOrd α] [DecidableEq α]
    (writes : Std.ExtTreeMap α β) (place : α) (value : β) (otherwise : α → β) :
    (fun other => ((writes.insert place value)[other]?).getD (otherwise other)) =
      Function.update (fun other => (writes[other]?).getD (otherwise other)) place value := by
  funext other
  rw [Std.ExtTreeMap.getElem?_insert, Function.update_apply]
  by_cases same : other = place
  · subst same
    simp
  · have apart : compare place other ≠ .eq := fun equal =>
      same (Std.LawfulEqOrd.eq_of_compare equal).symm
    rw [if_neg apart, if_neg same]

@[simp] theorem view_setStorage (contract : Address) (key value : Word) :
    (o.setStorage contract key value).view host = (o.view host).setSlot ⟨contract, key⟩ value := by
  rw [view_eq_flatten, view_eq_flatten, flatten_setStorage]
  simp only [Effects.view, View.setSlot, getD_insert]

@[simp] theorem view_setBalance (address : Address) (value : Word) :
    (o.setBalance address value).view host = (o.view host).setBalance address value := by
  rw [view_eq_flatten, view_eq_flatten, flatten_setBalance]
  simp only [Effects.view, View.setBalance, getD_insert]

@[simp] theorem view_setCode (address : Address) (code : Bytes) :
    (o.setCode address code).view host = (o.view host).setCode address code := by
  rw [view_eq_flatten, view_eq_flatten, flatten_setCode]
  simp only [Effects.view, View.setCode, getD_insert]

@[simp] theorem view_setNonce (address : Address) (nonce : Nat) :
    (o.setNonce address nonce).view host = (o.view host).setNonce address nonce := by
  rw [view_eq_flatten, view_eq_flatten, flatten_setNonce]
  simp only [Effects.view, View.setNonce, getD_insert]

@[simp] theorem view_incrementNonce (address : Address) :
    (o.incrementNonce host address).view host =
      (o.view host).setNonce address (Quantity.addSat ((o.view host).nonces address) 1) :=
  view_setNonce host o address _

@[simp] theorem view_suicide (address : Address) :
    (o.suicide address).view host = (o.view host).destroy address := by
  rw [view_eq_flatten, view_eq_flatten, flatten_suicide]
  unfold Effects.view View.destroy
  congr 1
  funext other
  rw [Std.ExtTreeSet.contains_insert, Function.update_apply]
  by_cases same : other = address
  · subst same
    simp
  · have apart : compare address other ≠ .eq := fun equal =>
      same (Std.LawfulEqOrd.eq_of_compare equal).symm
    simp [apart, same]

@[simp] theorem view_addLog (entry : Log) : (o.addLog entry).view host = o.view host := by
  rw [view_eq_flatten, view_eq_flatten, flatten_addLog]
  rfl

@[simp] theorem view_addRefund (amount : Nat) : (o.addRefund amount).view host = o.view host := by
  rw [view_eq_flatten, view_eq_flatten, flatten_addRefund]
  rfl

@[simp] theorem view_refundIf (reason : Prop) [Decidable reason] (amount : Nat) :
    (o.refundIf reason amount).view host = o.view host := by
  unfold refundIf
  split
  · exact view_addRefund host o amount
  · rfl

@[simp] theorem view_refundSuicide (address : Address) (amount : Nat) :
    (o.refundSuicide address amount).view host = o.view host :=
  view_refundIf host o _ amount

/-! ## Scopes -/

/-- A scope without effects hides nothing. -/
@[simp] theorem view_enter : o.enter.view host = o.view host := by
  have none_destroyed : o.flatten.suicides ∪ Effects.empty.suicides = o.flatten.suicides :=
    Std.ExtTreeSet.ext_mem fun address => by simp [Effects.empty]
  rw [view_eq_flatten, view_eq_flatten]
  show (flatten ⟨.empty, o.current :: o.outer⟩).view host = _
  rw [flatten_nested]
  simp only [Effects.view, Effects.merge, none_destroyed]
  simp only [Effects.empty, union_empty]

@[simp] theorem view_commit : o.commit.view host = o.view host := by
  rw [view_eq_flatten, view_eq_flatten, flatten_commit]

/-! ## Ways in which value moves -/

variable {host o} {moved : Overlay}

theorem movesBetween_transfer {payer payee : Address} {value : Word}
    (paid : o.transfer host payer payee value = .ok moved) :
    (o.view host).MovesBetween (moved.view host) payer payee := by
  rcases transfer_eq_ok paid with rfl | ⟨_, _, _, rfl⟩
  · exact .refl _ _ _
  · rw [view_setBalance, view_setBalance]
    exact ((View.MovesBetween.refl _ _ _).setBalance (.inl rfl) _).setBalance (.inr rfl) _

theorem movesBetween_handOver {address beneficiary : Address}
    (handed : o.handOver host address beneficiary = .ok moved) :
    (o.view host).MovesBetween (moved.view host) address beneficiary := by
  rcases handOver_eq_ok handed with ⟨_, rfl | rfl⟩ | paid
  · exact .refl _ _ _
  · rw [view_setBalance]
    exact (View.MovesBetween.refl _ _ _).setBalance (.inl rfl) _
  · exact movesBetween_transfer paid

end Overlay

end EvmLedger.Vm
