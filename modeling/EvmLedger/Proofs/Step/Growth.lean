/-
# EvmLedger.Proofs.Step.Growth -- memory costs what it grows by, in any order

Growing memory costs the difference of the prices of both sizes, so the differences of
one growth after another add up to that of the first and the last size: what was paid
depends on the greatest extent alone (`payAll?_eq`), and not on the order of the extents
or on how often they come.

A single growth is refused exactly when its difference is more than the gas that is left,
and then nothing has changed (`growMemory_refused`).  From a size of at most `2 ^ 59` words
to an extent of 64 bits all numbers that come up have less than 128 bits, however steep
the prices are (`inRange_of_le`).
-/
import EvmLedger.Proofs.Schedule
import EvmLedger.Proofs.Step.Outcome
import Mathlib.Order.Bounds.Defs

namespace EvmLedger.Vm

set_option autoImplicit false

open Quantity (wordsFor)

/-! ## One growth after another -/

/-- Pays for memory to cover several extents in turn, each time from the number of words that the
last payment has led to. -/
def Gas.payAll? (schedule : Schedule) (left words : Nat) : List Nat → Option (Nat × Nat)
  | [] => some (left, words)
  | extent :: rest => do
      let (left, words) ← payMemory? schedule left words extent
      payAll? schedule left words rest

/-- The number of words that cover several extents, from so many words on. -/
def wordsAfter (words : Nat) (extents : List Nat) : Nat :=
  extents.foldl (fun words extent => max words (wordsFor extent)) words

/-- The sizes that a number of words and several extents ask for. -/
def sizesAsked (words : Nat) (extents : List Nat) : Set Nat :=
  {size | size = words ∨ ∃ extent ∈ extents, size = wordsFor extent}

variable {schedule : Schedule} {words : Nat} {extents : List Nat}

theorem isGreatest_wordsAfter (words : Nat) (extents : List Nat) :
    IsGreatest (sizesAsked words extents) (wordsAfter words extents) := by
  induction extents generalizing words with
  | nil => simp [sizesAsked, wordsAfter, IsGreatest, upperBounds]
  | cons extent rest ih =>
      obtain ⟨asked, greatest⟩ := ih (max words (wordsFor extent))
      have start : max words (wordsFor extent) ≤ wordsAfter words (extent :: rest) :=
        greatest (.inl rfl)
      refine ⟨?_, ?_⟩
      · rcases asked with same | ⟨later, among, same⟩
        · rcases max_choice words (wordsFor extent) with kept | grown
          · exact .inl (same.trans kept)
          · exact .inr ⟨extent, List.mem_cons_self, same.trans grown⟩
        · exact .inr ⟨later, List.mem_cons_of_mem _ among, same⟩
      · rintro size (rfl | ⟨later, among, rfl⟩)
        · omega
        · rcases List.mem_cons.1 among with rfl | among
          · omega
          · exact greatest (.inr ⟨later, among, rfl⟩)

theorem le_wordsAfter (words : Nat) (extents : List Nat) : words ≤ wordsAfter words extents :=
  (isGreatest_wordsAfter words extents).2 (.inl rfl)

/-- Only the set of the extents matters. -/
theorem wordsAfter_congr {others : List Nat}
    (same : ∀ extent, extent ∈ others ↔ extent ∈ extents) :
    wordsAfter words others = wordsAfter words extents := by
  have asked : sizesAsked words others = sizesAsked words extents := by
    simp only [sizesAsked, same]
  exact (isGreatest_wordsAfter words others).unique (asked ▸ isGreatest_wordsAfter words extents)

/-- All payments together are one for the greatest size, and they are refused when that one is. -/
theorem Gas.payAll?_eq (schedule : Schedule) (left words : Nat) (extents : List Nat) :
    payAll? schedule left words extents =
      if schedule.memoryCost (wordsAfter words extents) - schedule.memoryCost words ≤ left then
        some (left - (schedule.memoryCost (wordsAfter words extents) - schedule.memoryCost words),
          wordsAfter words extents)
      else none := by
  induction extents generalizing left words with
  | nil => simp [payAll?, wordsAfter]
  | cons extent rest ih =>
      have first := schedule.memoryCost_mono (Nat.le_max_left words (wordsFor extent))
      have later := schedule.memoryCost_mono (le_wordsAfter (max words (wordsFor extent)) rest)
      show (payMemory? schedule left words extent).bind _ = _
      rw [payMemory?_eq, wordsAfter, List.foldl_cons, ← wordsAfter]
      by_cases enough : schedule.memoryCost (max words (wordsFor extent)) -
          schedule.memoryCost words ≤ left
      · rw [if_pos enough, Option.bind_some]
        dsimp only
        rw [ih]
        split
        · rw [if_pos (by omega)]
          congr 2
          omega
        · rw [if_neg (by omega)]
      · rw [if_neg enough, if_neg (by omega)]
        rfl

/-! ## A single growth -/

/-- The numbers from which the price of so many words is computed have at most 128 bits. -/
structure Schedule.InRange (schedule : Schedule) (words : Nat) : Prop where
  linear : schedule.memory * words < 2 ^ 128
  square : words * words < 2 ^ 128
  total : schedule.memoryCost words < 2 ^ 128

theorem Schedule.inRange_of_le (priceFits : schedule.memory < 2 ^ 64) (few : words ≤ 2 ^ 59) :
    schedule.InRange words := by
  have linear : schedule.memory * words ≤ 2 ^ 64 * 2 ^ 59 :=
    Nat.mul_le_mul (Nat.le_of_lt priceFits) few
  have square : words * words ≤ 2 ^ 59 * 2 ^ 59 := Nat.mul_le_mul few few
  have quotient : words * words / max schedule.quadCoeffDiv 1 ≤ words * words := Nat.div_le_self _ _
  refine ⟨by omega, by omega, ?_⟩
  rw [memoryCost]
  omega

theorem wordsFor_le {extent : Nat} (addressable : extent < 2 ^ 64) : wordsFor extent ≤ 2 ^ 59 := by
  unfold wordsFor
  omega

theorem Gas.payMemory?_eq_none_iff (schedule : Schedule) (left words extent : Nat) :
    payMemory? schedule left words extent = none ↔
      left < schedule.memoryCost (max words (wordsFor extent)) - schedule.memoryCost words := by
  rw [payMemory?_eq, ite_eq_right_iff]
  simp only [reduceCtorEq, imp_false, Nat.not_le]

/-- A growth that is refused changes nothing. -/
theorem Step.growMemory_refused (schedule : Schedule) (extent : Nat) (s : Exec) :
    Meets (growMemory schedule extent) s
      (fun _ _ => ¬s.frame.gas < schedule.memoryCost (max s.frame.memory.words (wordsFor extent)) -
        schedule.memoryCost s.frame.memory.words)
      (fun halt t => halt = .outOfGas ∧ t = s ∧
        s.frame.gas < schedule.memoryCost (max s.frame.memory.words (wordsFor extent)) -
          schedule.memoryCost s.frame.memory.words) := by
  unfold growMemory
  by_cases nothing : extent = 0
  · simp [nothing, wordsFor]
  · rw [if_pos nothing, meets_bind_iff, meets_get]
    cases paid : Gas.payMemory? schedule s.frame.gas s.frame.memory.words extent with
    | none => exact ⟨rfl, rfl, (Gas.payMemory?_eq_none_iff _ _ _ _).1 paid⟩
    | some after =>
        intro poor
        rw [(Gas.payMemory?_eq_none_iff _ _ _ _).2 poor] at paid
        cases paid

/-! ## All together -/

/-- Paying for memory is exact and does not depend on the path.  Payments that all succeed lead to
the greatest of the sizes asked for, and cost the difference of the prices of the last and the first
size; the same extents in another order, or more often, cost the same and are refused together.  A
single payment is refused exactly when its difference is more than the gas that is left, and the
frame is then as it was.  No number on the way has more than 128 bits, and nothing is taken from
less than it. -/
theorem memory_growth_exact (priceFits : schedule.memory < 2 ^ 64) (sizeFits : words ≤ 2 ^ 59)
    (addressable : ∀ extent ∈ extents, extent < 2 ^ 64) :
    (∀ left left' final, Gas.payAll? schedule left words extents = some (left', final) →
      IsGreatest (sizesAsked words extents) final ∧ final ≤ 2 ^ 59 ∧
        schedule.memoryCost words ≤ schedule.memoryCost final ∧
        left = left' + (schedule.memoryCost final - schedule.memoryCost words)) ∧
    (∀ left others, (∀ extent, extent ∈ others ↔ extent ∈ extents) →
      Gas.payAll? schedule left words others = Gas.payAll? schedule left words extents) ∧
    ∀ current ≤ 2 ^ 59, ∀ extent < 2 ^ 64,
      (∀ left, Gas.payMemory? schedule left current extent = none ↔
        left < schedule.memoryCost (max current (wordsFor extent)) -
          schedule.memoryCost current) ∧
      (∀ s : Exec, s.frame.memory.words = current →
        ((∃ halt t, Step.growMemory schedule extent s = .error halt t) ↔
          s.frame.gas < schedule.memoryCost (max current (wordsFor extent)) -
            schedule.memoryCost current) ∧
        ∀ halt t, Step.growMemory schedule extent s = .error halt t → halt = .outOfGas ∧ t = s) ∧
      schedule.InRange current ∧ schedule.InRange (wordsFor extent) ∧
      (current < wordsFor extent →
        schedule.memoryCost current ≤ schedule.memoryCost (wordsFor extent)) := by
  refine ⟨?total, ?order, fun current few extent within => ⟨?refusal, ?frame, ?range⟩⟩
  case total =>
    intro left left' final paid
    rw [Gas.payAll?_eq] at paid
    split at paid
    case isTrue enough =>
      cases paid
      have greatest := isGreatest_wordsAfter words extents
      refine ⟨greatest, ?_, schedule.memoryCost_mono (le_wordsAfter words extents), by omega⟩
      rcases greatest.1 with same | ⟨extent, among, same⟩
      · omega
      · rw [same]
        exact wordsFor_le (addressable extent among)
    case isFalse => cases paid
  case order =>
    intro left others same
    rw [Gas.payAll?_eq, Gas.payAll?_eq, wordsAfter_congr same]
  case refusal => exact fun left => Gas.payMemory?_eq_none_iff schedule left current extent
  case frame =>
    rintro s rfl
    have refused := Step.growMemory_refused schedule extent s
    refine ⟨⟨?_, ?_⟩, ?_⟩
    · rintro ⟨halt, t, ended⟩
      exact (refused.of_error ended).2.2
    · intro poor
      cases ended : Step.growMemory schedule extent s with
      | ok _ t => exact absurd poor (refused.of_ok ended)
      | error halt t => exact ⟨halt, t, rfl⟩
    · intro halt t ended
      obtain ⟨starved, same, -⟩ := refused.of_error ended
      exact ⟨starved, same⟩
  case range =>
    refine ⟨schedule.inRange_of_le priceFits few,
      schedule.inRange_of_le priceFits (wordsFor_le within), fun grows => ?_⟩
    exact schedule.memoryCost_mono (Nat.le_of_lt grows)

/-- A price list whose divisor is zero, which stands for one. -/
def Schedule.steep : Schedule := { memory := 7, quadCoeffDiv := 0 }

/-- One, three and one words cost what three words cost, in any order; two words more are refused
to a frame that has less than their difference. -/
theorem memory_growth_exact_steep :
    (Schedule.steep.memory < 2 ^ 64 ∧ 0 ≤ 2 ^ 59 ∧ ∀ extent ∈ [32, 65, 1], extent < 2 ^ 64) ∧
      Gas.payAll? .steep 1000 0 [32, 65, 1] = some (970, 3) ∧
      1000 = 970 + (Schedule.steep.memoryCost 3 - Schedule.steep.memoryCost 0) ∧
      Gas.payAll? .steep 1000 0 [65, 1, 32, 32] = some (970, 3) ∧
      Gas.payMemory? .steep 29 3 160 = none := by
  have priceFits : Schedule.steep.memory < 2 ^ 64 := by decide
  have addressable : ∀ extent ∈ [32, 65, 1], extent < 2 ^ 64 := by decide
  obtain ⟨total, order, single⟩ := memory_growth_exact priceFits (Nat.zero_le _) addressable
  have paid : Gas.payAll? .steep 1000 0 [32, 65, 1] = some (970, 3) := by decide
  refine ⟨⟨priceFits, Nat.zero_le _, addressable⟩, paid, (total _ _ _ paid).2.2.2, ?_, ?_⟩
  · rw [order 1000 [65, 1, 32, 32] (by simp; omega), paid]
  · exact ((single 3 (by decide) 160 (by decide)).1 29).2 (by decide)

end EvmLedger.Vm
