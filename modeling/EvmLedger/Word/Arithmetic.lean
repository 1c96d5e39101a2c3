/-
# EvmLedger.Word.Arithmetic -- the machine's arithmetic

Unsigned operations work modulo `2 ^ 256`; signed ones read words as
two's-complement integers.  Dividing by zero gives zero.  Sums and products
under a modulus are exact before they are reduced.
-/

import EvmLedger.Word

namespace EvmLedger.Word

set_option autoImplicit false

/-! ## Division -/

/-- The quotient, or zero for a zero divisor. -/
def div (a b : Word) : Word :=
  if b = 0 then 0 else a / b

/-- The remainder, or zero for a zero divisor. -/
def rem (a b : Word) : Word :=
  if b = 0 then 0 else a % b

def sdiv (a b : Word) : Word :=
  if b = 0 then 0
  else
    let (aNegative, aMagnitude) := signMagnitude a
    let (bNegative, bMagnitude) := signMagnitude b
    ofSignMagnitude (aNegative != bNegative) (aMagnitude / bMagnitude)

/-- The signed remainder, with the sign of the dividend. -/
def smod (a b : Word) : Word :=
  if b = 0 then 0
  else
    let (aNegative, aMagnitude) := signMagnitude a
    let (_, bMagnitude) := signMagnitude b
    ofSignMagnitude aNegative (aMagnitude % bMagnitude)

/-- `(a + b) mod n`, or zero for a zero modulus. -/
def addmod (a b n : Word) : Word :=
  if n = 0 then 0 else ofNat ((a.toNat + b.toNat) % n.toNat)

/-- `(a * b) mod n`, or zero for a zero modulus. -/
def mulmod (a b n : Word) : Word :=
  if n = 0 then 0 else ofNat (a.toNat * b.toNat % n.toNat)

/-! ## Powers -/

/-- The power for exponents below `2 ^ bits`, by repeated squaring. -/
def power : (bits : Nat) → (base : Word) → (exponent : Nat) → Word
  | 0, _, _ => 1
  | bits + 1, base, exponent =>
      if exponent = 0 then 1
      else
        let rest := power bits (base * base) (exponent / 2)
        if exponent % 2 = 1 then base * rest else rest

def exp (base exponent : Word) : Word :=
  power 256 base exponent.toNat

def bitLength (w : Word) : Nat :=
  if w = 0 then 0 else w.toNat.log2 + 1

def significantBytes (w : Word) : Nat :=
  (bitLength w + 7) / 8

theorem significantBytes_le (w : Word) : w.significantBytes ≤ 32 := by
  have small := w.isLt
  unfold significantBytes bitLength
  by_cases zero : w = 0
  · simp [zero]
  · have nonzero : w.toNat ≠ 0 := fun none => zero (BitVec.eq_of_toNat_eq none)
    have short := (Nat.log2_lt nonzero).2 small
    simp only [zero, if_false]
    omega

/-! ## Bytes and bits -/

/-- Extends the sign of the value in the low `b + 1` bytes of `x`. -/
def signExtend (b x : Word) : Word :=
  if 31 ≤ b.toNat then x
  else
    let bit := b.toNat * 8 + 7
    let mask : Word := (1 <<< bit) - 1
    if x.getLsbD bit then x ||| ~~~mask else x &&& mask

/-- The byte of `x` at place `i`, the most significant one being at place zero. -/
def byteAt (i x : Word) : Word :=
  if 32 ≤ i.toNat then 0 else (x >>> ((31 - i.toNat) * 8)) &&& 0xff

def shl (shift value : Word) : Word :=
  if 256 ≤ shift.toNat then 0 else value <<< shift.toNat

def shr (shift value : Word) : Word :=
  if 256 ≤ shift.toNat then 0 else value >>> shift.toNat

/-- The value shifted right, copies of the sign coming in. -/
def sar (shift value : Word) : Word :=
  if 256 ≤ shift.toNat then (if isNegative value then maximum else 0)
  else if isNegative value then ~~~(~~~value >>> shift.toNat)
  else value >>> shift.toNat

/-! ## Signed order -/

/-- The word whose only set bit is the sign. -/
def signBit : Word := 1 <<< 255

/-- Signed less-than: flipping the sign bits turns it into the unsigned order. -/
def slt (a b : Word) : Bool :=
  (a ^^^ signBit).ult (b ^^^ signBit)

def sgt (a b : Word) : Bool :=
  (b ^^^ signBit).ult (a ^^^ signBit)

end EvmLedger.Word
