/-
# EvmLedger.Proofs.Failure -- taking apart computations that may fail

A sequence succeeds when both of its parts do, and fails with the cause of the part
that fails.  Readers and checks are sequences of this kind, so what they come to is
found by taking them apart from the front.
-/

namespace EvmLedger

set_option autoImplicit false

variable {ε ε' α β : Type}

theorem bind_eq_ok {first : Except ε α} {rest : α → Except ε β} {b : β}
    (done : first >>= rest = .ok b) : ∃ a, first = .ok a ∧ rest a = .ok b := by
  cases first with
  | ok a => exact ⟨a, rfl, done⟩
  | error cause => cases done

theorem bind_eq_error {first : Except ε α} {rest : α → Except ε β} {cause : ε}
    (failed : first >>= rest = .error cause) :
    first = .error cause ∨ ∃ a, first = .ok a ∧ rest a = .error cause := by
  cases first with
  | ok a => exact Or.inr ⟨a, rfl, failed⟩
  | error cause' => exact Or.inl (congrArg Except.error (Except.error.inj failed))

theorem exists_error_iff {result : Except ε α} :
    (∃ cause, result = .error cause) ↔ ¬∃ a, result = .ok a := by
  cases result with
  | ok a => simp
  | error cause => simp

theorem map_eq_ok {result : Except ε α} {f : α → β} {b : β} (done : result.map f = .ok b) :
    ∃ a, result = .ok a ∧ f a = b := by
  cases result with
  | ok a => exact ⟨a, rfl, Except.ok.inj done⟩
  | error cause => cases done

theorem map_eq_error {result : Except ε α} {f : α → β} {cause : ε}
    (failed : result.map f = .error cause) : result = .error cause := by
  cases result with
  | ok a => cases failed
  | error cause' => exact congrArg Except.error (Except.error.inj failed)

theorem mapError_eq_ok {result : Except ε α} {f : ε → ε'} {a : α}
    (done : result.mapError f = .ok a) : result = .ok a := by
  cases result with
  | ok b => exact congrArg Except.ok (Except.ok.inj done)
  | error cause => cases done

end EvmLedger
