/-
# EvmLedger.Proofs.Overlay.Code -- which code an account has

The code of an account is read through a list of scopes (`codeIn`), since closing
a scope makes an enclosing one current.  Of all writes only the one that stores
code changes what is read (`codeIn_of_codes`), and a scope that is merged into the
next one is read as before (`codeIn_merge`).
-/
import EvmLedger.Proofs.Overlay

namespace EvmLedger.Vm

set_option autoImplicit false

/-- The code of an account, read through a list of scopes over a host. -/
def codeIn (host : Host) (scopes : List Effects) (address : Address) : Bytes :=
  (scopes.findSome? fun e => e.codes[address]?).getD (host.code address)

variable {host : Host} {address : Address}

theorem codeIn_merge (parent child : Effects) (rest : List Effects) :
    codeIn host (parent.merge child :: rest) address =
      codeIn host (child :: parent :: rest) address := by
  simp only [codeIn, List.findSome?_cons, Effects.merge, Std.ExtTreeMap.getElem?_union]
  cases child.codes[address]? with
  | some code => rfl
  | none => rfl

/-- A scope that holds no code is read through. -/
theorem codeIn_of_none {e : Effects} {scopes : List Effects} (none_held : e.codes = ∅) :
    codeIn host (e :: scopes) address = codeIn host scopes address := by
  simp [codeIn, none_held]

namespace Overlay

variable {o o' moved : Overlay}

theorem code_eq_codeIn (host : Host) (o : Overlay) (address : Address) :
    o.code host address = codeIn host o.scopes address := rfl

/-- Writes of other kinds change no code. -/
theorem codeIn_of_codes (outer : o'.outer = o.outer) (codes : o'.current.codes = o.current.codes) :
    codeIn host o'.scopes address = codeIn host o.scopes address := by
  simp only [codeIn, scopes_eq, outer, List.findSome?_cons, codes]

theorem codeIn_setCode (o : Overlay) (account : Address) (code : Bytes) :
    codeIn host (o.setCode account code).scopes address =
      if address = account then code else codeIn host o.scopes address := by
  unfold codeIn
  rw [scopes_eq, scopes_eq, outer_setCode]
  by_cases same : address = account
  · subst same
    simp [setCode, update]
  · have apart : compare account address ≠ .eq := fun equal =>
      same (Std.LawfulEqOrd.eq_of_compare equal).symm
    simp [setCode, update, List.findSome?_cons, Std.ExtTreeMap.getElem?_insert, apart, same]

theorem codes_refundIf (o : Overlay) (reason : Prop) [Decidable reason] (amount : Nat) :
    (o.refundIf reason amount).current.codes = o.current.codes := by
  unfold refundIf
  split <;> rfl

theorem codes_transfer {payer payee : Address} {value : Word}
    (paid : o.transfer host payer payee value = .ok moved) :
    moved.current.codes = o.current.codes := by
  rcases transfer_eq_ok paid with rfl | ⟨_, _, _, rfl⟩
  · rfl
  · rfl

theorem codes_handOver {account beneficiary : Address}
    (handed : o.handOver host account beneficiary = .ok moved) :
    moved.current.codes = o.current.codes := by
  rcases handOver_eq_ok handed with ⟨_, rfl | rfl⟩ | paid
  · rfl
  · rfl
  · exact codes_transfer paid

end Overlay

end EvmLedger.Vm
