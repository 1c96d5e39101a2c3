/-
# EvmLedger.Word -- the 256-bit machine word

A word is a vector of 256 bits.  It converts to and from at most 32 big-endian
bytes without loss (`ofBytes?`, `toBytes`, `toMinimalBytes`); longer strings are
refused or, by `ofBytesTruncating`, cut to their last 32 bytes.  `narrow?` gives
the value as a 64-bit quantity when it is one.

Text holds a number in decimal digits, or in at most sixty-four hexadecimal ones after
`0x`, which may stand there twice (`ofText?`); no digits at all are zero.

Signed readings take a word as a two's-complement integer; `signMagnitude` and
`ofSignMagnitude` split and rebuild it.
-/

import EvmLedger.Bytes
import EvmLedger.Hex
import EvmLedger.Quantity

namespace EvmLedger

set_option autoImplicit false

/-- A machine word. -/
abbrev Word := BitVec 256

namespace Word

/-- Words are ordered as numbers. -/
instance : Std.TransOrd Word := inferInstanceAs (Std.TransOrd (BitVec 256))

/-- A byte string too long for a word, by its length. -/
structure TooLong where
  length : Nat
  deriving DecidableEq, Repr

def TooLong.message (e : TooLong) : String :=
  "value of " ++ toString e.length ++ " bytes does not fit in a 32-byte word"

/-! ## Bytes -/

/-- The word of a byte string of any length, modulo `2 ^ 256`. -/
def ofBytes (bytes : Bytes) : Word :=
  BitVec.ofNat 256 bytes.toNat

/-- The word of at most 32 bytes. -/
def ofBytes? (bytes : Bytes) : Except TooLong Word :=
  if 32 < bytes.length then .error ⟨bytes.length⟩ else .ok (ofBytes bytes)

/-- The word of the last 32 bytes. -/
def ofBytesTruncating (bytes : Bytes) : Word :=
  ofBytes (bytes.takeLast 32)

def toBytes (w : Word) : Bytes :=
  Bytes.ofNat 32 w.toNat

/-- The bytes of a word without leading zeros; zero has none. -/
def toMinimalBytes (w : Word) : Bytes :=
  (toBytes w).dropZeros

/-! ## Quantities -/

/-- The value, if it is a 64-bit quantity. -/
def narrow? (w : Word) : Option Nat :=
  if w.toNat < Quantity.bound then some w.toNat else none

theorem narrow?_eq_some {w : Word} {n : Nat} :
    narrow? w = some n ↔ w.toNat = n ∧ n < Quantity.bound := by
  unfold narrow?
  constructor
  · intro narrow
    split at narrow
    · cases narrow
      exact ⟨rfl, ‹_›⟩
    · cases narrow
  · rintro ⟨rfl, fits⟩
    exact if_pos fits

/-- The value, or the greatest quantity when it is larger. -/
def clamp (w : Word) : Nat :=
  (narrow? w).getD Quantity.greatest

/-- The low 64 bits. -/
def low (w : Word) : Nat :=
  Quantity.wrap w.toNat

/-- The word of a natural number, modulo `2 ^ 256`. -/
def ofNat (n : Nat) : Word :=
  BitVec.ofNat 256 n

theorem toNat_ofNat_of_lt {n : Nat} (fits : n < Quantity.bound) : (ofNat n).toNat = n := by
  have wide : Quantity.bound ≤ 2 ^ 256 := by decide
  rw [ofNat, BitVec.toNat_ofNat, Nat.mod_eq_of_lt (Nat.lt_of_lt_of_le fits wide)]

/-- One for `true`, zero for `false`. -/
def ofBool (b : Bool) : Word :=
  if b then 1 else 0

/-- The word with every bit set. -/
def maximum : Word := BitVec.allOnes 256

/-! ## Sign and magnitude -/

def isNegative (w : Word) : Bool := w.msb

def negate (w : Word) : Word := ~~~w + 1

/-- Whether a word is negative, and its absolute value. -/
def signMagnitude (w : Word) : Bool × Word :=
  if isNegative w then (true, negate w) else (false, w)

/-- The word with the given sign and absolute value. -/
def ofSignMagnitude (negative : Bool) (magnitude : Word) : Word :=
  if negative then negate magnitude else magnitude

/-! ## Text -/

def toDecimal (w : Word) : String := toString w.toNat

def toHex (w : Word) : String := "0x" ++ Hex.ofNat w.toNat

/-- The word in hexadecimal digits; an odd first digit stands for a byte. -/
def ofHexDigits? (digits : Bytes) : Option Word :=
  if 64 < digits.length then none
  else do
    let digits := if digits.length % 2 = 1 then 48 :: digits else digits
    some (ofBytes (← (Hex.decodeDigits digits).toOption))

def ofDecimalDigits? (digits : Bytes) : Option Word := do
  let n ← digits.foldlM (fun n c => do
    if c < 48 ∨ 57 < c then none else some (n * 10 + (c.toNat - 48))) 0
  if n ≤ maximum.toNat then some (Word.ofNat n) else none

def ofText? (text : List Char) : Option Word :=
  match text with
  | '0' :: 'x' :: digits => ofHexDigits? (Hex.utf8 (Hex.strip0x digits))
  | digits => ofDecimalDigits? (Hex.utf8 digits)

end Word

end EvmLedger
