/-
# EvmLedger.Proofs.Overlay -- the discipline of scopes

Every write goes to the innermost scope and leaves the enclosing ones alone
(`outer_update` and the lemmas after it), opening and forgetting a scope cancel
each other (`discard_enter`), and closing a scope touches the next one only
(`commit_of_outer`, `discard_of_outer`).

A scope without any effects may as well be kept as be forgotten
(`commit_eq_discard`), given that refunds are amounts; they are, under whatever is
written to the scopes (`RefundsFit`).

`transfer_eq_ok` and `handOver_eq_ok` are the inversion laws of the two ways in
which value moves: all later arguments about balances start from them.
-/
import EvmLedger.Vm.Overlay

namespace EvmLedger.Vm.Overlay

set_option autoImplicit false

variable {host : Host} {o moved : Overlay}

/-! ## Scopes -/

theorem scopes_eq (o : Overlay) : o.scopes = o.current :: o.outer := rfl

theorem eq_of_scopes {o' : Overlay} (same : o.scopes = o'.scopes) : o = o' := by
  obtain ⟨current, outer⟩ := List.cons.inj same
  cases o
  cases o'
  cases current
  cases outer
  rfl

@[simp] theorem outer_enter (o : Overlay) : o.enter.outer = o.scopes := rfl

@[simp] theorem discard_enter (o : Overlay) : o.enter.discard = o := rfl

theorem commit_of_outer {parent : Effects} {rest : List Effects} (nested : o.outer = parent :: rest) :
    o.commit = ⟨parent.merge o.current, rest⟩ := by
  unfold commit
  rw [nested]

theorem discard_of_outer {parent : Effects} {rest : List Effects}
    (nested : o.outer = parent :: rest) : o.discard = ⟨parent, rest⟩ := by
  unfold discard
  rw [nested]

/-! ## Writes stay in the innermost scope -/

@[simp] theorem outer_update (o : Overlay) (f : Effects → Effects) :
    (o.update f).outer = o.outer := rfl

@[simp] theorem outer_setStorage (o : Overlay) (contract : Address) (key value : Word) :
    (o.setStorage contract key value).outer = o.outer := rfl

@[simp] theorem outer_setBalance (o : Overlay) (address : Address) (value : Word) :
    (o.setBalance address value).outer = o.outer := rfl

@[simp] theorem outer_setCode (o : Overlay) (address : Address) (code : Bytes) :
    (o.setCode address code).outer = o.outer := rfl

@[simp] theorem outer_incrementNonce (host : Host) (o : Overlay) (address : Address) :
    (o.incrementNonce host address).outer = o.outer := rfl

@[simp] theorem outer_suicide (o : Overlay) (address : Address) :
    (o.suicide address).outer = o.outer := rfl

@[simp] theorem outer_addLog (o : Overlay) (entry : Log) : (o.addLog entry).outer = o.outer := rfl

@[simp] theorem outer_refundIf (o : Overlay) (reason : Prop) [Decidable reason] (amount : Nat) :
    (o.refundIf reason amount).outer = o.outer := by
  unfold refundIf
  split <;> rfl

@[simp] theorem outer_refundSuicide (o : Overlay) (address : Address) (amount : Nat) :
    (o.refundSuicide address amount).outer = o.outer :=
  outer_refundIf o _ amount

/-! ## Refunds are amounts -/

/-- In every scope the gas to be given back is an amount. -/
def RefundsFit (o : Overlay) : Prop := ∀ e ∈ o.scopes, e.refund < Quantity.bound

theorem RefundsFit.current (fits : o.RefundsFit) : o.current.refund < Quantity.bound :=
  fits o.current List.mem_cons_self

/-- Only the innermost scope is looked at when only that one was written to. -/
theorem RefundsFit.of_current {o' : Overlay} (fits : o.RefundsFit) (outer : o'.outer = o.outer)
    (current : o'.current.refund < Quantity.bound) : o'.RefundsFit := by
  intro e among
  rw [scopes_eq, outer] at among
  rcases List.mem_cons.1 among with rfl | further
  · exact current
  · exact fits e (List.mem_cons_of_mem _ further)

theorem RefundsFit.enter (fits : o.RefundsFit) : o.enter.RefundsFit := by
  intro e among
  rcases List.mem_cons.1 among with rfl | further
  · exact (by decide : 0 < Quantity.bound)
  · exact fits e further

theorem RefundsFit.refundIf (fits : o.RefundsFit) (reason : Prop) [Decidable reason]
    (amount : Nat) : (o.refundIf reason amount).RefundsFit := by
  refine fits.of_current (outer_refundIf o reason amount) ?_
  unfold Overlay.refundIf
  split
  · exact Quantity.addSat_lt _ _
  · exact fits.current

theorem RefundsFit.commit (fits : o.RefundsFit) : o.commit.RefundsFit := by
  unfold Overlay.commit
  split
  · exact fits
  · rename_i parent rest nested
    intro e among
    rcases List.mem_cons.1 among with rfl | further
    · exact Quantity.addSat_lt _ _
    · refine fits e (List.mem_cons_of_mem _ ?_)
      rw [nested]
      exact List.mem_cons_of_mem _ further

theorem RefundsFit.discard (fits : o.RefundsFit) : o.discard.RefundsFit := by
  unfold Overlay.discard
  split
  · intro e among
    rw [List.mem_singleton.1 among]
    exact (by decide : 0 < Quantity.bound)
  · rename_i parent rest nested
    intro e among
    refine fits e (List.mem_cons_of_mem _ ?_)
    rw [nested]
    exact among

/-- A map followed by an empty one. -/
theorem union_empty {α β : Type} [Ord α] [Std.TransOrd α] [Std.LawfulEqOrd α]
    (writes : Std.ExtTreeMap α β) : writes ∪ ∅ = writes := by
  refine Std.ExtTreeMap.ext_getElem? fun place => ?_
  rw [Std.ExtTreeMap.getElem?_union, Std.ExtTreeMap.getElem?_empty, Option.none_or]

/-- Effects that were followed by none. -/
theorem merge_empty {parent : Effects} (fits : parent.refund < Quantity.bound) :
    parent.merge .empty = parent := by
  have suicides : parent.suicides ∪ ∅ = parent.suicides :=
    Std.ExtTreeSet.ext_mem fun address => by simp
  simp only [Effects.merge, Effects.empty, union_empty, suicides, Quantity.addSat_zero fits,
    Array.append_empty]

/-- Keeping a scope without effects is forgetting it. -/
theorem commit_eq_discard {parent : Effects} {rest : List Effects} (nested : o.outer = parent :: rest)
    (empty : o.current = .empty) (fits : parent.refund < Quantity.bound) : o.commit = o.discard := by
  rw [commit_of_outer nested, discard_of_outer nested, empty, merge_empty fits]

/-! ## Ways in which value moves -/

/-- A transfer that is not refused moves value between two accounts, each of which is written
once, or it has nothing to do. -/
theorem transfer_eq_ok {payer payee : Address} {value : Word}
    (paid : o.transfer host payer payee value = .ok moved) :
    moved = o ∨
      payer ≠ payee ∧ value ≤ o.balance host payer ∧
        (o.balance host payee).toNat + value.toNat ≤ Word.maximum.toNat ∧
        moved = (o.setBalance payer (o.balance host payer - value)).setBalance payee
          (Word.ofNat ((o.balance host payee).toNat + value.toNat)) := by
  unfold transfer at paid
  dsimp only at paid
  by_cases poor : o.balance host payer < value
  · rw [if_pos poor] at paid
    cases paid
  · rw [if_neg poor] at paid
    by_cases trivial : payer = payee ∨ value = 0
    · rw [if_pos trivial] at paid
      cases paid
      exact Or.inl rfl
    · rw [if_neg trivial] at paid
      by_cases excess : Word.maximum.toNat < (o.balance host payee).toNat + value.toNat
      · rw [if_pos excess] at paid
        cases paid
      · rw [if_neg excess] at paid
        cases paid
        have apart : payer ≠ payee := fun same => trivial (Or.inl same)
        exact Or.inr ⟨apart, BitVec.not_lt.1 poor, Nat.le_of_not_lt excess, rfl⟩

/-- A transfer to oneself or of nothing writes nothing. -/
theorem transfer_trivial {payer payee : Address} {value : Word}
    (trivial : payer = payee ∨ value = 0)
    (paid : o.transfer host payer payee value = .ok moved) : moved = o := by
  unfold transfer at paid
  dsimp only at paid
  rw [if_pos trivial] at paid
  split at paid
  · cases paid
  · cases paid
    rfl

/-- Funds are handed over by a transfer of all of them, unless they stay with the account: then
they are gone. -/
theorem handOver_eq_ok {address beneficiary : Address}
    (handed : o.handOver host address beneficiary = .ok moved) :
    beneficiary = address ∧ (moved = o ∨ moved = o.setBalance address 0) ∨
      o.transfer host address beneficiary (o.balance host address) = .ok moved := by
  unfold handOver at handed
  dsimp only at handed
  by_cases self : beneficiary = address
  · rw [if_pos self] at handed
    cases handed
    refine Or.inl ⟨self, ?_⟩
    split
    · exact Or.inl rfl
    · exact Or.inr rfl
  · rw [if_neg self] at handed
    exact Or.inr handed

theorem outer_transfer {payer payee : Address} {value : Word}
    (paid : o.transfer host payer payee value = .ok moved) : moved.outer = o.outer := by
  rcases transfer_eq_ok paid with rfl | ⟨_, _, _, rfl⟩
  · rfl
  · rfl

theorem outer_handOver {address beneficiary : Address}
    (handed : o.handOver host address beneficiary = .ok moved) : moved.outer = o.outer := by
  rcases handOver_eq_ok handed with ⟨_, rfl | rfl⟩ | paid
  · rfl
  · rfl
  · exact outer_transfer paid

theorem RefundsFit.transfer {payer payee : Address} {value : Word} (fits : o.RefundsFit)
    (paid : o.transfer host payer payee value = .ok moved) : moved.RefundsFit := by
  rcases transfer_eq_ok paid with rfl | ⟨_, _, _, rfl⟩
  · exact fits
  · exact fits.of_current rfl fits.current

theorem RefundsFit.handOver {address beneficiary : Address} (fits : o.RefundsFit)
    (handed : o.handOver host address beneficiary = .ok moved) : moved.RefundsFit := by
  rcases handOver_eq_ok handed with ⟨_, rfl | rfl⟩ | paid
  · exact fits
  · exact fits.of_current rfl fits.current
  · exact fits.transfer paid

end EvmLedger.Vm.Overlay
