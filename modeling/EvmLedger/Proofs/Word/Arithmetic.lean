/-
# EvmLedger.Proofs.Word.Arithmetic -- words as integers

A word is read in two ways: as the number `toNat` below `2 ^ 256`, and as the
two's-complement integer `toInt` from `-2 ^ 255` on.  The machine builds its signed
operations from unsigned ones, by magnitudes (`sdiv`, `smod`), complements (`sar`), a
flipped sign (`slt`, `sgt`) and masks (`signExtend`).  Here each of them is what its
name says of the integers.

Most of them are a library operation on bit vectors in another form (`sdiv_eq`,
`smod_eq`, `sar_eq`, `signExtend_eq`), and so what is known of that one is known of
them.  No operand is left out: zero divisors, the quotient that overflows, shifts by
more than the width and places past the end have their answers here too.
-/
import EvmLedger.Word.Arithmetic
import Mathlib.Data.Nat.Bitwise
import Mathlib.Order.Bounds.Basic
import Mathlib.Tactic.ByContra

namespace EvmLedger.Word

set_option autoImplicit false

/-! ## Signed division -/

theorem negate_eq (w : Word) : negate w = -w := (BitVec.neg_eq_not_add w).symm

theorem sdiv_eq (a b : Word) : sdiv a b = BitVec.sdiv a b := by
  by_cases zero : b = 0
  · subst zero
    exact BitVec.sdiv_zero.symm
  · unfold sdiv signMagnitude ofSignMagnitude isNegative
    rw [if_neg zero, BitVec.sdiv_eq]
    cases a.msb <;> cases b.msb <;> simp [negate_eq]

theorem smod_eq {b : Word} (a : Word) (nonzero : b ≠ 0) : smod a b = BitVec.srem a b := by
  unfold smod signMagnitude ofSignMagnitude isNegative
  rw [if_neg nonzero, BitVec.srem_eq]
  cases a.msb <;> cases b.msb <;> simp [negate_eq]

/-- The one quotient that does not fit a word is the negation of the least one. -/
theorem toInt_sdiv (a b : Word) :
    (sdiv a b).toInt =
      if b = 0 then 0
      else if a.toInt = -2 ^ 255 ∧ b.toInt = -1 then -2 ^ 255
      else a.toInt.tdiv b.toInt := by
  have least : (BitVec.intMin 256).toInt = -2 ^ 255 := by decide
  have minus_one : (-1 : Word).toInt = -1 := by decide
  rw [sdiv_eq]
  split
  · rename_i zero
    rw [zero]
    exact congrArg BitVec.toInt BitVec.sdiv_zero
  · split
    · rename_i overflow
      obtain ⟨a_least, b_minus⟩ := overflow
      obtain rfl : a = BitVec.intMin 256 := BitVec.eq_of_toInt_eq (a_least.trans least.symm)
      obtain rfl : b = -1 := BitVec.eq_of_toInt_eq (b_minus.trans minus_one.symm)
      rw [← least]
      exact congrArg BitVec.toInt BitVec.intMin_sdiv_neg_one
    · rename_i fits
      apply BitVec.toInt_sdiv_of_ne_or_ne
      by_contra overflow
      push Not at overflow
      obtain ⟨rfl, rfl⟩ := overflow
      exact fits ⟨least, minus_one⟩

theorem toInt_smod (a b : Word) :
    (smod a b).toInt = if b = 0 then 0 else a.toInt.tmod b.toInt := by
  split
  · rename_i zero
    rw [smod, if_pos zero]
    rfl
  · rename_i nonzero
    rw [smod_eq a nonzero, BitVec.toInt_srem]

/-- Quotient and remainder make up the dividend, also where the quotient overflows. -/
theorem sdiv_mul_add_smod (a b : Word) :
    sdiv a b * b + smod a b = if b = 0 then 0 else a := by
  split
  · rename_i zero
    rw [smod, if_pos zero, zero]
    simp
  · rename_i nonzero
    apply BitVec.eq_of_toInt_eq
    rw [BitVec.toInt_add, BitVec.toInt_mul, sdiv_eq, smod_eq a nonzero, BitVec.toInt_sdiv,
      BitVec.toInt_srem, Int.bmod_mul_bmod, Int.bmod_add_bmod, Int.tdiv_mul_add_tmod,
      BitVec.toInt_bmod_cancel]

/-! ## Signed order -/

/-- With its sign flipped a word is its signed value, moved up to where none is negative. -/
theorem toNat_xor_signBit (w : Word) : ((w ^^^ signBit).toNat : Int) = w.toInt + 2 ^ 255 := by
  have high : (w ^^^ signBit).toNat / 2 ^ 255 = w.toNat / 2 ^ 255 ^^^ 1 := Nat.xor_div_two_pow
  have low : (w ^^^ signBit).toNat % 2 ^ 255 = w.toNat % 2 ^ 255 ^^^ 0 := Nat.xor_mod_two_pow
  rw [Nat.xor_zero] at low
  have bounded := w.isLt
  rw [BitVec.toInt_eq_toNat_cond]
  rcases Nat.lt_or_ge w.toNat (2 ^ 255) with small | large
  · have clear : w.toNat / 2 ^ 255 = 0 := Nat.div_eq_of_lt small
    rw [clear, Nat.zero_xor] at high
    rw [if_pos (by omega)]
    omega
  · have set : w.toNat / 2 ^ 255 = 1 := by omega
    rw [set, Nat.xor_self] at high
    rw [if_neg (by omega)]
    omega

theorem slt_iff (a b : Word) : slt a b = true ↔ a.toInt < b.toInt := by
  have flipped := toNat_xor_signBit a
  have flipped' := toNat_xor_signBit b
  rw [slt, BitVec.ult_iff_lt, BitVec.lt_def]
  omega

theorem sgt_iff (a b : Word) : sgt a b = true ↔ b.toInt < a.toInt := slt_iff b a

/-! ## Shifts and bytes -/

theorem sar_eq (shift value : Word) : sar shift value = value.sshiftRight shift.toNat := by
  unfold sar isNegative
  cases sign : value.msb with
  | true =>
      rw [BitVec.sshiftRight_eq_of_msb_true sign]
      split
      · rename_i far
        rw [BitVec.ushiftRight_eq_zero far]
        decide
      · rfl
  | false =>
      rw [BitVec.sshiftRight_eq_of_msb_false sign]
      split
      · rename_i far
        rw [BitVec.ushiftRight_eq_zero far]
        rfl
      · rfl

theorem toInt_sar (shift value : Word) :
    (sar shift value).toInt = value.toInt / 2 ^ shift.toNat := by
  rw [sar_eq, BitVec.toInt_sshiftRight, Int.shiftRight_eq_div_pow]
  norm_cast

theorem toNat_shl (shift value : Word) :
    (shl shift value).toNat = value.toNat * 2 ^ shift.toNat % 2 ^ 256 := by
  unfold shl
  split
  · rename_i far
    have whole : 2 ^ 256 ∣ value.toNat * 2 ^ shift.toNat :=
      (pow_dvd_pow 2 far).mul_left value.toNat
    exact (Nat.mod_eq_zero_of_dvd whole).symm
  · rw [BitVec.toNat_shiftLeft, Nat.shiftLeft_eq]

theorem toNat_shr (shift value : Word) :
    (shr shift value).toNat = value.toNat / 2 ^ shift.toNat := by
  unfold shr
  split
  · rename_i far
    have small : value.toNat < 2 ^ shift.toNat :=
      Nat.lt_of_lt_of_le value.isLt (Nat.pow_le_pow_right (by decide) far)
    exact (Nat.div_eq_of_lt small).symm
  · rw [BitVec.toNat_ushiftRight, Nat.shiftRight_eq_div_pow]

/-- The digits in base 256, the first of 32 being the most significant. -/
theorem toNat_byteAt (i x : Word) :
    (byteAt i x).toNat = if i.toNat < 32 then x.toNat / 256 ^ (31 - i.toNat) % 256 else 0 := by
  unfold byteAt
  split
  · rename_i past
    rw [if_neg (Nat.not_lt.2 past)]
    rfl
  · rename_i inside
    have digit : (0xff : Word).toNat = 2 ^ 8 - 1 := rfl
    have place : 2 ^ ((31 - i.toNat) * 8) = 256 ^ (31 - i.toNat) := by
      rw [Nat.mul_comm, Nat.pow_mul]
    rw [if_pos (Nat.lt_of_not_le inside), BitVec.toNat_and, digit, Nat.and_two_pow_sub_one_eq_mod,
      BitVec.toNat_ushiftRight, Nat.shiftRight_eq_div_pow, place]

/-! ## Extending the sign -/

theorem getLsbD_mask {bit : Nat} (inside : bit < 256) (i : Nat) :
    (((1 <<< bit : Nat) : Word) - 1).getLsbD i = decide (i < bit) := by
  have small : 2 ^ bit < 2 ^ 256 := Nat.pow_lt_pow_right (by decide) inside
  have power : ((1 <<< bit : Nat) : Word).toNat = 2 ^ bit := by
    rw [BitVec.natCast_eq_ofNat, BitVec.toNat_ofNat, Nat.one_shiftLeft, Nat.mod_eq_of_lt small]
  have one : (1 : Word).toNat = 1 := rfl
  have positive : (1 : Word) ≤ ((1 <<< bit : Nat) : Word) := by
    rw [BitVec.le_def, power, one]
    exact Nat.two_pow_pos bit
  rw [BitVec.getLsbD, BitVec.toNat_sub_of_le positive, power, one, Nat.testBit_two_pow_sub_one]

/-- Setting all bits above one that is set, or clearing all above one that is clear, repeats it. -/
theorem masked_eq_signExtend (x : Word) {mask : Word} {bit : Nat} (inside : bit < 256)
    (covers : ∀ i, mask.getLsbD i = decide (i < bit)) :
    (if x.getLsbD bit then x ||| ~~~mask else x &&& mask) =
      (x.setWidth (bit + 1)).signExtend 256 := by
  have sign : (x.setWidth (bit + 1)).msb = x.getLsbD bit := by
    rw [BitVec.msb_eq_getLsbD_last, BitVec.getLsbD_setWidth]
    simp
  apply BitVec.eq_of_getLsbD_eq
  intro i i_lt
  rw [BitVec.getLsbD_signExtend, BitVec.getLsbD_setWidth, sign]
  cases set : x.getLsbD bit with
  | true =>
      rw [if_pos rfl, BitVec.getLsbD_or, BitVec.getLsbD_not, covers]
      rcases Nat.lt_trichotomy i bit with low | rfl | high
      · simp [low, Nat.lt_succ_of_lt low, i_lt]
      · simp [set, i_lt]
      · simp [Nat.not_lt_of_lt high, Nat.not_lt.2 (Nat.succ_le_of_lt high), i_lt]
  | false =>
      rw [if_neg Bool.false_ne_true, BitVec.getLsbD_and, covers]
      rcases Nat.lt_trichotomy i bit with low | rfl | high
      · simp [low, Nat.lt_succ_of_lt low, i_lt]
      · simp [set]
      · simp [Nat.not_lt_of_lt high, Nat.not_lt.2 (Nat.succ_le_of_lt high)]

theorem signExtend_eq (b x : Word) :
    signExtend b x = (x.setWidth (8 * min (b.toNat + 1) 32)).signExtend 256 := by
  unfold signExtend
  split
  · rename_i whole
    have all : 8 * min (b.toNat + 1) 32 = 256 := by omega
    rw [all, BitVec.setWidth_eq, BitVec.signExtend_eq]
  · rename_i part
    have width : 8 * min (b.toNat + 1) 32 = b.toNat * 8 + 7 + 1 := by omega
    have inside : b.toNat * 8 + 7 < 256 := by omega
    rw [width]
    exact masked_eq_signExtend x inside (getLsbD_mask inside)

theorem toInt_signExtend (b x : Word) :
    (signExtend b x).toInt = (x.setWidth (8 * min (b.toNat + 1) 32)).toInt := by
  rw [signExtend_eq, BitVec.toInt_signExtend_of_le (by omega)]

/-! ## Moduli -/

theorem toNat_ofNat_mod {n : Word} (value : Nat) (nonzero : n ≠ 0) :
    (ofNat (value % n.toNat)).toNat = value % n.toNat := by
  have positive : 0 < n.toNat :=
    Nat.pos_of_ne_zero fun none => nonzero (BitVec.eq_of_toNat_eq none)
  rw [ofNat, BitVec.toNat_ofNat]
  exact Nat.mod_eq_of_lt (Nat.lt_trans (Nat.mod_lt value positive) n.isLt)

theorem toNat_addmod (a b n : Word) :
    (addmod a b n).toNat = if n = 0 then 0 else (a.toNat + b.toNat) % n.toNat := by
  unfold addmod
  split
  · rfl
  · rename_i nonzero
    exact toNat_ofNat_mod _ nonzero

theorem toNat_mulmod (a b n : Word) :
    (mulmod a b n).toNat = if n = 0 then 0 else a.toNat * b.toNat % n.toNat := by
  unfold mulmod
  split
  · rfl
  · rename_i nonzero
    exact toNat_ofNat_mod _ nonzero

/-! ## Powers -/

/-- Squaring the base makes up for halving the exponent. -/
theorem toNat_power (bits : Nat) (base : Word) (exponent : Nat) (fits : exponent < 2 ^ bits) :
    (power bits base exponent).toNat = base.toNat ^ exponent % 2 ^ 256 := by
  induction bits generalizing base exponent with
  | zero =>
      obtain rfl : exponent = 0 := by omega
      rfl
  | succ bits ih =>
      have half : exponent / 2 < 2 ^ bits := by omega
      have squared : (power bits (base * base) (exponent / 2)).toNat =
          base.toNat ^ (2 * (exponent / 2)) % 2 ^ 256 := by
        rw [ih _ _ half, BitVec.toNat_mul, ← Nat.pow_mod, Nat.pow_mul, Nat.pow_two]
      unfold power
      split
      · rename_i zero
        rw [zero]
        rfl
      · split
        · rename_i odd
          rw [BitVec.toNat_mul, squared, Nat.mul_mod_mod, ← Nat.pow_succ']
          congr 2
          omega
        · rename_i even
          rw [squared]
          congr 2
          omega

theorem toNat_exp (base exponent : Word) :
    (exp base exponent).toNat = base.toNat ^ exponent.toNat % 2 ^ 256 :=
  toNat_power 256 base exponent.toNat exponent.isLt

theorem bitLength_le_iff (w : Word) (bits : Nat) : w.bitLength ≤ bits ↔ w.toNat < 2 ^ bits := by
  unfold bitLength
  by_cases zero : w = 0
  · rw [if_pos zero, zero]
    exact iff_of_true (Nat.zero_le bits) (Nat.two_pow_pos bits)
  · have nonzero : w.toNat ≠ 0 := fun none => zero (BitVec.eq_of_toNat_eq none)
    rw [if_neg zero, ← Nat.log2_lt nonzero]
    rfl

theorem significantBytes_le_iff (w : Word) (count : Nat) :
    w.significantBytes ≤ count ↔ w.toNat < 256 ^ count := by
  have bytes : 256 ^ count = 2 ^ (8 * count) := by rw [Nat.pow_mul]
  rw [bytes, ← bitLength_le_iff, significantBytes]
  omega

/-! ## All operations -/

/-- The arithmetic of words is that of the integers.  The signed quotient is rounded toward zero, the
remainder has the sign of the dividend, and both are zero for a zero divisor; the order, the
shifts, the bytes and the extension of a sign are those of the values, for all shifts and places;
under a modulus nothing overflows; powers are modulo `2 ^ 256`, and an exponent has as many bytes as
it takes to write it. -/
theorem arithmetic_exact :
    (∀ a b : Word,
      (sdiv a b).toInt =
        (if b = 0 then 0
          else if a.toInt = -2 ^ 255 ∧ b.toInt = -1 then -2 ^ 255
          else a.toInt.tdiv b.toInt) ∧
      (smod a b).toInt = (if b = 0 then 0 else a.toInt.tmod b.toInt) ∧
      sdiv a b * b + smod a b = if b = 0 then 0 else a) ∧
    (∀ a b : Word,
      (slt a b = true ↔ a.toInt < b.toInt) ∧ (sgt a b = true ↔ a.toInt > b.toInt)) ∧
    (∀ shift value : Word,
      (sar shift value).toInt = value.toInt / 2 ^ shift.toNat ∧
      (shl shift value).toNat = value.toNat * 2 ^ shift.toNat % 2 ^ 256 ∧
      (shr shift value).toNat = value.toNat / 2 ^ shift.toNat) ∧
    (∀ i x : Word,
      (byteAt i x).toNat =
        if i.toNat < 32 then x.toNat / 256 ^ (31 - i.toNat) % 256 else 0) ∧
    (∀ b x : Word, (signExtend b x).toInt = (x.setWidth (8 * min (b.toNat + 1) 32)).toInt) ∧
    (∀ a b n : Word,
      (addmod a b n).toNat = (if n = 0 then 0 else (a.toNat + b.toNat) % n.toNat) ∧
      (mulmod a b n).toNat = if n = 0 then 0 else a.toNat * b.toNat % n.toNat) ∧
    (∀ base exponent : Word,
      (exp base exponent).toNat = base.toNat ^ exponent.toNat % 2 ^ 256 ∧
      IsLeast {count | exponent.toNat < 256 ^ count} exponent.significantBytes) := by
  refine ⟨?division, ?order, ?shifts, toNat_byteAt, toInt_signExtend, ?moduli, ?powers⟩
  case division =>
    intro a b
    exact ⟨toInt_sdiv a b, toInt_smod a b, sdiv_mul_add_smod a b⟩
  case order =>
    intro a b
    exact ⟨slt_iff a b, sgt_iff a b⟩
  case shifts =>
    intro shift value
    exact ⟨toInt_sar shift value, toNat_shl shift value, toNat_shr shift value⟩
  case moduli =>
    intro a b n
    exact ⟨toNat_addmod a b n, toNat_mulmod a b n⟩
  case powers =>
    intro base exponent
    refine ⟨toNat_exp base exponent, ?_, ?_⟩
    · exact (significantBytes_le_iff exponent _).1 (Nat.le_refl _)
    · intro count enough
      exact (significantBytes_le_iff exponent count).2 enough

end EvmLedger.Word
