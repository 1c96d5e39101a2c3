/-
# EvmLedger.Proofs.Schedule -- prices against exact numbers

A price that grows with an operand is computed in steps that stop at the greatest
quantity, and stopping early loses nothing: the result is the exact number or the
greatest quantity, whichever is less (`clamp_add`, `foldl_addSat`).  The price of a
power is computed in steps that refuse to leave the range, so it is exact or missing
(`expCost?_eq_some`), and a price list can make it missing (`power_without_price`).

The price of memory is exact.  It never falls as memory grows (`memoryCost_mono`), so a
payment for memory is for the difference between the sizes before and after it, and for
nothing where memory already reaches far enough (`payMemory?_eq`).
-/
import EvmLedger.Proofs.Word.Arithmetic
import EvmLedger.Vm.Schedule
import Mathlib.Data.Nat.Digits.Lemmas
import Mathlib.Tactic.NormNum

namespace EvmLedger

set_option autoImplicit false

/-! ## Sums that stop at the greatest quantity -/

namespace Quantity

theorem clamp_of_lt {n : Nat} (fits : n < bound) : clamp n = n :=
  Nat.min_eq_left (Nat.le_sub_one_of_lt fits)

/-- Where a part stops, the sum stops. -/
theorem clamp_add (a b : Nat) : clamp (clamp a + b) = clamp (a + b) := by
  simp only [clamp]
  omega

theorem addSat_clamp (a b : Nat) : addSat a (clamp b) = clamp (a + b) := by
  rw [addSat, Nat.add_comm, clamp_add, Nat.add_comm]

/-- It does not matter where a long sum stops, or how often. -/
theorem foldl_addSat {α : Type} (price : α → Nat) (items : List α) {base : Nat}
    (fits : base < bound) :
    items.foldl (fun sum item => addSat sum (price item)) base =
      clamp (base + (items.map price).sum) := by
  induction items generalizing base with
  | nil => exact (clamp_of_lt fits).symm
  | cons item rest ih =>
      rw [List.foldl_cons, ih (addSat_lt _ _), addSat, clamp_add, List.map_cons, List.sum_cons,
        Nat.add_assoc]

end Quantity

/-- An exponent has as many bytes as it has digits in base 256. -/
theorem Word.significantBytes_eq (w : Word) :
    w.significantBytes = (Nat.digits 256 w.toNat).length := by
  refine eq_of_forall_ge_iff fun count => ?_
  rw [Word.significantBytes_le_iff, Nat.digits_length_le_iff (by decide)]

namespace Vm

namespace Schedule

open Quantity (addSat_clamp clamp mulSat wordsFor)

variable (s : Schedule)

/-! ## Prices that depend on operands -/

theorem sha3Cost_eq (size : Nat) :
    s.sha3Cost size = min (2 ^ 64 - 1) (s.sha3 + s.sha3Word * wordsFor size) := by
  rw [sha3Cost, mulSat, addSat_clamp]
  exact Nat.min_comm _ _

theorem logCost_eq (topics size : Nat) :
    s.logCost topics size =
      min (2 ^ 64 - 1) (s.log + s.logTopic * topics + s.logData * size) := by
  rw [logCost, mulSat, mulSat, addSat_clamp, addSat_clamp, Quantity.clamp_add]
  exact Nat.min_comm _ _

/-- The bytes of the data are paid for one by one, and zero bytes at their own price. -/
theorem sum_dataPrice (data : Bytes) :
    (data.map fun byte => if byte = 0 then s.txDataZero else s.txDataNonZero).sum =
      s.txDataZero * data.count 0 + s.txDataNonZero * data.countP (· ≠ 0) := by
  induction data with
  | nil => rfl
  | cons byte rest ih =>
      rw [List.map_cons, List.sum_cons, ih]
      by_cases zero : byte = 0
      · simp [zero, Nat.mul_add]
        omega
      · simp [zero, Nat.mul_add]
        omega

theorem intrinsicGas_eq {data : Bytes} {isCreate : Bool}
    (fits : (if isCreate then s.txCreate else s.tx) < 2 ^ 64) :
    s.intrinsicGas data isCreate =
      min (2 ^ 64 - 1) ((if isCreate then s.txCreate else s.tx) + s.txDataZero * data.count 0 +
        s.txDataNonZero * data.countP (· ≠ 0)) := by
  rw [intrinsicGas, Quantity.foldl_addSat _ _ fits, sum_dataPrice, ← Nat.add_assoc, clamp,
    Nat.min_comm]
  rfl

/-- The price of a power is the exact one, and there is none where that is no quantity. -/
theorem expCost?_eq_some {exponent : Word} {cost : Nat} :
    s.expCost? exponent = some cost ↔
      s.exp + s.expByte * exponent.significantBytes = cost ∧ cost < Quantity.bound := by
  unfold expCost?
  simp only [Option.bind_eq_bind, Option.bind_eq_some_iff, Quantity.mul?_eq_some,
    Quantity.add?_eq_some]
  constructor
  · rintro ⟨_, ⟨rfl, -⟩, sum, fits⟩
    exact ⟨sum, fits⟩
  · rintro ⟨rfl, fits⟩
    exact ⟨_, ⟨rfl, by omega⟩, rfl, fits⟩

theorem expCost?_eq_none {exponent : Word} :
    s.expCost? exponent = none ↔
      Quantity.bound ≤ s.exp + s.expByte * exponent.significantBytes := by
  rw [Option.eq_none_iff_forall_ne_some]
  simp only [ne_eq, expCost?_eq_some, not_and, forall_eq', Nat.not_lt]

/-- The prices of copies, digests, log entries and transactions are the exact ones, or the greatest
quantity where those are greater.  The price of a power is exact as long as that is a quantity, and
otherwise there is none.  So whatever the price list, nothing dear gets cheap. -/
theorem prices_never_wrap (callFits : s.tx < 2 ^ 64) (createFits : s.txCreate < 2 ^ 64) :
    (∀ size, s.copyCost size = min (2 ^ 64 - 1) (s.copy * wordsFor size)) ∧
    (∀ size, s.sha3Cost size = min (2 ^ 64 - 1) (s.sha3 + s.sha3Word * wordsFor size)) ∧
    (∀ topics size,
      s.logCost topics size =
        min (2 ^ 64 - 1) (s.log + s.logTopic * topics + s.logData * size)) ∧
    (∀ (data : Bytes) (isCreate : Bool),
      s.intrinsicGas data isCreate =
        min (2 ^ 64 - 1) ((if isCreate then s.txCreate else s.tx) +
          s.txDataZero * data.count 0 + s.txDataNonZero * data.countP (· ≠ 0))) ∧
    (∀ exponent : Word,
      s.exp + s.expByte * (Nat.digits 256 exponent.toNat).length < 2 ^ 64 →
      s.expCost? exponent =
        some (min (2 ^ 64 - 1) (s.exp + s.expByte * (Nat.digits 256 exponent.toNat).length))) ∧
    ∀ exponent : Word,
      2 ^ 64 ≤ s.exp + s.expByte * (Nat.digits 256 exponent.toNat).length →
      s.expCost? exponent = none := by
  refine ⟨fun size => ?copy, s.sha3Cost_eq, s.logCost_eq, fun data isCreate => ?transaction,
    fun exponent fits => ?power, fun exponent dear => ?missing⟩
  case copy => exact Nat.min_comm _ _
  case transaction =>
    apply s.intrinsicGas_eq
    cases isCreate
    · exact callFits
    · exact createFits
  case power =>
    rw [Nat.min_eq_right (by omega), ← Word.significantBytes_eq, expCost?_eq_some]
    rw [← Word.significantBytes_eq] at fits
    exact ⟨rfl, fits⟩
  case missing =>
    rw [← Word.significantBytes_eq] at dear
    exact s.expCost?_eq_none.2 dear

/-- A price list with a great price for a word of a digest and for a byte of a power's exponent. -/
def dear : Schedule := { sha3Word := 2 ^ 63, expByte := 2 ^ 63 }

/-- A digest of three words is at the greatest price, and a power with a short exponent at its exact
one. -/
theorem prices_never_wrap_dear :
    dear.tx < 2 ^ 64 ∧ dear.txCreate < 2 ^ 64 ∧
      dear.sha3Cost 65 = 2 ^ 64 - 1 ∧ dear.expCost? 255 = some (10 + 2 ^ 63) := by
  have callFits : dear.tx < 2 ^ 64 := by decide
  have createFits : dear.txCreate < 2 ^ 64 := by decide
  obtain ⟨-, digest, -, -, power, -⟩ := dear.prices_never_wrap callFits createFits
  refine ⟨callFits, createFits, (digest 65).trans (by decide), ?_⟩
  have one_byte : (Nat.digits 256 (255 : Word).toNat).length = 1 := by simp
  have short := power 255
  rw [one_byte] at short
  exact (short (by decide)).trans (by decide)

/-- With two bytes in the exponent the same power has no price, not even the greatest one. -/
theorem power_without_price :
    dear.expCost? 256 = none ∧
      dear.expCost? 256 ≠
        some (min (2 ^ 64 - 1)
          (dear.exp + dear.expByte * (Nat.digits 256 (256 : Word).toNat).length)) := by
  have missing : dear.expCost? 256 = none := by decide
  refine ⟨missing, ?_⟩
  rw [missing]
  exact (Option.some_ne_none _).symm

/-! ## The price of memory -/

/-- The price of memory never falls as memory grows. -/
theorem memoryCost_mono {words more : Nat} (le : words ≤ more) :
    s.memoryCost words ≤ s.memoryCost more :=
  Nat.add_le_add (Nat.mul_le_mul_left _ le) (Nat.div_le_div_right (Nat.mul_le_mul le le))

@[simp] theorem memoryCost_zero : s.memoryCost 0 = 0 := by
  simp [memoryCost]

end Schedule

/-- A payment for memory is for the difference between the sizes before and after it. -/
theorem Gas.payMemory?_eq (schedule : Schedule) (left words extent : Nat) :
    payMemory? schedule left words extent =
      if schedule.memoryCost (max words (Quantity.wordsFor extent)) - schedule.memoryCost words ≤
          left then
        some (left - (schedule.memoryCost (max words (Quantity.wordsFor extent)) -
          schedule.memoryCost words), max words (Quantity.wordsFor extent))
      else none := by
  unfold payMemory? pay?
  by_cases covered : Quantity.wordsFor extent ≤ words
  · simp [covered]
  · have grows : max words (Quantity.wordsFor extent) = Quantity.wordsFor extent := by omega
    rw [grows, if_neg covered]
    by_cases poor : left < schedule.memoryCost (Quantity.wordsFor extent) -
        schedule.memoryCost words
    · rw [if_pos poor, if_neg (Nat.not_le.2 poor)]
      rfl
    · rw [if_neg poor, if_pos (Nat.not_lt.1 poor)]
      rfl

end Vm

end EvmLedger
