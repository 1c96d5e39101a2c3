/-
# EvmLedger.Quantity -- sixty-four bit amounts

Gas, nonces, sizes and offsets are natural numbers that stay below `2 ^ 64`.
The arithmetic on them is ordinary arithmetic except where a result could leave
that range, and there the operation says what happens: `addSat` and `mulSat`
stop at the greatest amount, `add?`, `mul?` and `sub?` refuse, `wrap` keeps the
low 64 bits.
-/

namespace EvmLedger.Quantity

set_option autoImplicit false

/-- One more than the greatest amount. -/
def bound : Nat := 18446744073709551616

def signedBound : Nat := 9223372036854775808

def greatest : Nat := bound - 1

/-- The amount itself, or the greatest amount when it is out of range. -/
def clamp (n : Nat) : Nat := min n greatest

def wrap (n : Nat) : Nat := n % bound

/-- Addition that stops at the greatest amount. -/
def addSat (a b : Nat) : Nat := clamp (a + b)

/-- Multiplication that stops at the greatest amount. -/
def mulSat (a b : Nat) : Nat := clamp (a * b)

/-- Addition that refuses a sum out of range. -/
def add? (a b : Nat) : Option Nat :=
  if a + b < bound then some (a + b) else none

/-- Multiplication that refuses a product out of range. -/
def mul? (a b : Nat) : Option Nat :=
  if a * b < bound then some (a * b) else none

/-- Subtraction that refuses to take away more than there is. -/
def sub? (a b : Nat) : Option Nat :=
  if b ≤ a then some (a - b) else none

theorem add?_eq_some {a b sum : Nat} : add? a b = some sum ↔ a + b = sum ∧ sum < bound := by
  unfold add?
  constructor
  · intro added
    split at added
    · cases added
      exact ⟨rfl, ‹_›⟩
    · cases added
  · rintro ⟨rfl, fits⟩
    exact if_pos fits

theorem mul?_eq_some {a b product : Nat} :
    mul? a b = some product ↔ a * b = product ∧ product < bound := by
  unfold mul?
  constructor
  · intro multiplied
    split at multiplied
    · cases multiplied
      exact ⟨rfl, ‹_›⟩
    · cases multiplied
  · rintro ⟨rfl, fits⟩
    exact if_pos fits

/-- Zero bits in front of the highest bit that is set, of the 64 bits of an amount. -/
def leadingZeros (n : Nat) : Nat := if n = 0 then 64 else 63 - n.log2

/-- Words of 32 bytes needed for `size` bytes. -/
def wordsFor (size : Nat) : Nat := (size + 31) / 32

theorem clamp_lt (n : Nat) : clamp n < bound := by
  simp only [clamp, greatest, bound]
  omega

theorem addSat_lt (a b : Nat) : addSat a b < bound := clamp_lt _

theorem addSat_le (a b : Nat) : addSat a b ≤ a + b := Nat.min_le_left _ _

theorem addSat_pos {a b : Nat} (positive : 1 ≤ a) : 1 ≤ addSat a b :=
  Nat.le_min.2 ⟨Nat.le_trans positive (Nat.le_add_right a b), by decide⟩

/-- It does not matter where a long sum stops. -/
theorem addSat_assoc (a b c : Nat) : addSat (addSat a b) c = addSat a (addSat b c) := by
  simp only [addSat, clamp]
  omega

theorem addSat_zero {a : Nat} (fits : a < bound) : addSat a 0 = a :=
  Nat.min_eq_left (Nat.le_sub_one_of_lt fits)

end EvmLedger.Quantity
