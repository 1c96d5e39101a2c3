/-
# EvmLedger.Proofs.Overlay.Merge -- all scopes as one

The scopes of an overlay merge into one (`flatten`).  Merging is associative
(`merge_assoc`), so they may be merged from either end: the outer scopes together
and then the innermost one (`flatten_nested`).  Hence it changes nothing to open
a scope (`flatten_enter`) or to keep one that is closed (`flatten_commit`).

What is read through the scopes is what stands in their merger (`find?_eq_flatten`
and the lemmas after it), and a write to the innermost scope is the same write to
the merger (`flatten_update` and the lemmas after it).  So two overlays that merge
into the same effects cannot be told apart by reading, and they stay
indistinguishable under every write.
-/
import EvmLedger.Proofs.Overlay

namespace EvmLedger.Vm

set_option autoImplicit false

/-! ## Maps and sets -/

section Maps

variable {α β : Type} [Ord α] [Std.TransOrd α]

theorem union_insert (a b : Std.ExtTreeMap α β) (place : α) (value : β) :
    a ∪ b.insert place value = (a ∪ b).insert place value :=
  Std.ExtTreeMap.union_insert_right_eq_insert_union (p := ⟨place, value⟩)

variable [Std.LawfulEqOrd α]

theorem union_assoc (a b c : Std.ExtTreeMap α β) : a ∪ b ∪ c = a ∪ (b ∪ c) := by
  refine Std.ExtTreeMap.ext_getElem? fun place => ?_
  simp only [Std.ExtTreeMap.getElem?_union, Option.or_assoc]

theorem members_union_assoc (a b c : Std.ExtTreeSet α) : a ∪ b ∪ c = a ∪ (b ∪ c) := by
  refine Std.ExtTreeSet.ext_mem fun member => ?_
  simp only [Std.ExtTreeSet.mem_union_iff, or_assoc]

theorem members_union_insert (a b : Std.ExtTreeSet α) (member : α) :
    a ∪ b.insert member = (a ∪ b).insert member := by
  refine Std.ExtTreeSet.ext_mem fun other => ?_
  simp only [Std.ExtTreeSet.mem_union_iff, Std.ExtTreeSet.mem_insert]
  exact or_left_comm

end Maps

namespace Overlay

variable {host : Host} {o o' : Overlay}

/-! ## Merging -/

theorem merge_assoc (a b c : Effects) : (a.merge b).merge c = a.merge (b.merge c) := by
  simp only [Effects.merge, union_assoc, members_union_assoc, Array.append_assoc,
    Quantity.addSat_assoc]

theorem foldl_merge (child : Effects) (parent : Effects) (outer : List Effects) :
    outer.foldl (fun inner parent => parent.merge inner) (parent.merge child) =
      (outer.foldl (fun inner parent => parent.merge inner) parent).merge child := by
  induction outer generalizing parent with
  | nil => rfl
  | cons next outer ih =>
      rw [List.foldl_cons, List.foldl_cons, ← merge_assoc, ih]

/-- The innermost scope comes last. -/
theorem flatten_nested (current parent : Effects) (rest : List Effects) :
    flatten ⟨current, parent :: rest⟩ = (flatten ⟨parent, rest⟩).merge current :=
  foldl_merge current parent rest

theorem flatten_root (current : Effects) : flatten ⟨current, []⟩ = current := rfl

theorem flatten_commit (o : Overlay) : o.commit.flatten = o.flatten := by
  unfold commit
  split
  · rfl
  · rename_i parent rest nested
    show _ = o.outer.foldl _ o.current
    rw [nested]
    rfl

theorem RefundsFit.flatten (fits : o.RefundsFit) : o.flatten.refund < Quantity.bound := by
  obtain ⟨current, outer⟩ := o
  cases outer with
  | nil => exact fits.current
  | cons parent rest =>
      rw [flatten_nested]
      exact Quantity.addSat_lt _ _

theorem flatten_enter (fits : o.RefundsFit) : o.enter.flatten = o.flatten := by
  show flatten ⟨.empty, o.current :: o.outer⟩ = _
  rw [flatten_nested]
  exact merge_empty fits.flatten

/-! ## Reading -/

/-- The innermost scope that knows an answer has the last word in the merger. -/
theorem find?_eq_flatten {α : Type} {ask : Effects → Option α}
    (last : ∀ parent child, ask (parent.merge child) = (ask child).or (ask parent)) (o : Overlay) :
    o.find? ask = ask o.flatten := by
  obtain ⟨current, outer⟩ := o
  show List.findSome? ask (current :: outer) = _
  induction outer generalizing current with
  | nil =>
      rw [flatten_root, List.findSome?_cons]
      cases ask current with
      | none => rfl
      | some answer => rfl
  | cons parent rest ih =>
      rw [flatten_nested, last, ← ih, List.findSome?_cons]
      cases ask current with
      | none => rfl
      | some answer => rfl

theorem storage_eq_flatten (host : Host) (o : Overlay) (contract : Address) (key : Word) :
    o.storage host contract key = (o.flatten.storage[Slot.mk contract key]?).getD
      (host.slot contract key) := by
  unfold storage
  rw [find?_eq_flatten]
  exact fun _ _ => Std.ExtTreeMap.getElem?_union

theorem balance_eq_flatten (host : Host) (o : Overlay) (address : Address) :
    o.balance host address = (o.flatten.balances[address]?).getD (host.balance address) := by
  unfold balance
  rw [find?_eq_flatten]
  exact fun _ _ => Std.ExtTreeMap.getElem?_union

theorem code_eq_flatten (host : Host) (o : Overlay) (address : Address) :
    o.code host address = (o.flatten.codes[address]?).getD (host.code address) := by
  unfold code code?
  rw [find?_eq_flatten]
  exact fun _ _ => Std.ExtTreeMap.getElem?_union

theorem nonce_eq_flatten (host : Host) (o : Overlay) (address : Address) :
    o.nonce host address = (o.flatten.nonces[address]?).getD (host.nonce address) := by
  unfold nonce
  rw [find?_eq_flatten]
  exact fun _ _ => Std.ExtTreeMap.getElem?_union

theorem hasSuicided_eq_flatten (o : Overlay) (address : Address) :
    o.hasSuicided address = o.flatten.suicides.contains address := by
  obtain ⟨current, outer⟩ := o
  show List.any (current :: outer) _ = _
  induction outer generalizing current with
  | nil => rw [flatten_root, List.any_cons, List.any_nil, Bool.or_false]
  | cons parent rest ih =>
      rw [flatten_nested, List.any_cons, ih]
      show _ = (_ ∪ current.suicides).contains address
      rw [Std.ExtTreeSet.contains_union, Bool.or_comm]

/-! ## Writing -/

/-- A change that can be made before a merge or after it. -/
theorem flatten_update {change : Effects → Effects}
    (carries : ∀ parent child : Effects, parent.merge (change child) = change (parent.merge child))
    (o : Overlay) : (o.update change).flatten = change o.flatten := by
  obtain ⟨current, outer⟩ := o
  cases outer with
  | nil => rfl
  | cons parent rest =>
      show flatten ⟨change current, parent :: rest⟩ = _
      rw [flatten_nested, flatten_nested, carries]

theorem flatten_setStorage (o : Overlay) (contract : Address) (key value : Word) :
    (o.setStorage contract key value).flatten =
      { o.flatten with storage := o.flatten.storage.insert ⟨contract, key⟩ value } := by
  refine flatten_update (fun parent child => ?_) o
  simp only [Effects.merge, union_insert]

theorem flatten_setBalance (o : Overlay) (address : Address) (value : Word) :
    (o.setBalance address value).flatten =
      { o.flatten with balances := o.flatten.balances.insert address value } := by
  refine flatten_update (fun parent child => ?_) o
  simp only [Effects.merge, union_insert]

theorem flatten_setCode (o : Overlay) (address : Address) (code : Bytes) :
    (o.setCode address code).flatten =
      { o.flatten with codes := o.flatten.codes.insert address code } := by
  refine flatten_update (fun parent child => ?_) o
  simp only [Effects.merge, union_insert]

theorem flatten_setNonce (o : Overlay) (address : Address) (nonce : Nat) :
    (o.setNonce address nonce).flatten =
      { o.flatten with nonces := o.flatten.nonces.insert address nonce } := by
  refine flatten_update (fun parent child => ?_) o
  simp only [Effects.merge, union_insert]

theorem flatten_suicide (o : Overlay) (address : Address) :
    (o.suicide address).flatten =
      { o.flatten with suicides := o.flatten.suicides.insert address } := by
  refine flatten_update (fun parent child => ?_) o
  simp only [Effects.merge, members_union_insert]

theorem flatten_addLog (o : Overlay) (entry : Log) :
    (o.addLog entry).flatten = { o.flatten with logs := o.flatten.logs.push entry } := by
  refine flatten_update (fun parent child => ?_) o
  simp only [Effects.merge, Array.append_push]

theorem flatten_addRefund (o : Overlay) (amount : Nat) :
    (o.addRefund amount).flatten =
      { o.flatten with refund := Quantity.addSat o.flatten.refund amount } := by
  refine flatten_update (fun parent child => ?_) o
  simp only [Effects.merge, Quantity.addSat_assoc]

end Overlay

end EvmLedger.Vm
