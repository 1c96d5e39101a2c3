/-
# EvmLedger.Bytes -- byte strings and the numbers they denote

A byte string is a list of bytes.  Read as a number it is big-endian: the first
byte is the most significant one (`toNat`).  Going back, `ofNat width n` writes
exactly `width` bytes and drops whatever does not fit, so the value survives
modulo `256 ^ width`; `dropZeros` removes the leading zero bytes that carry no
value.

Reading beyond the end of a byte string gives zero bytes (`window`), which is
how call data, code and memory are all seen by the machine.
-/

namespace EvmLedger

set_option autoImplicit false

/-- A string of bytes. -/
abbrev Bytes := List UInt8

namespace Bytes

/-! ## Numbers -/

/-- The number a byte string denotes, most significant byte first. -/
def toNat (bytes : Bytes) : Nat :=
  bytes.foldl (fun value byte => value * 256 + byte.toNat) 0

/-- The `width` low base-256 digits of a number, least significant first. -/
def digits : Nat → Nat → Bytes
  | 0, _ => []
  | width + 1, n => UInt8.ofNat n :: digits width (n / 256)

/-- A number as exactly `width` bytes, most significant first. -/
def ofNat (width n : Nat) : Bytes :=
  (digits width n).reverse

/-- The byte string without its leading zero bytes. -/
def dropZeros (bytes : Bytes) : Bytes :=
  bytes.dropWhile (· == 0)

/-! ## Zero extension -/

/-- Zero bytes in front, up to `width` bytes; longer strings stay as they are. -/
def padLeft (width : Nat) (bytes : Bytes) : Bytes :=
  List.replicate (width - bytes.length) 0 ++ bytes

/-- The last `width` bytes, or the whole string when it is no longer than that. -/
def takeLast (width : Nat) (bytes : Bytes) : Bytes :=
  bytes.drop (bytes.length - width)

/-- `size` bytes from `offset` on; positions past the end read as zero. -/
def window (bytes : Bytes) (offset size : Nat) : Bytes :=
  let part := (bytes.drop offset).take size
  part ++ List.replicate (size - part.length) 0

/-! ## Own laws -/

@[simp]
theorem digits_length (width n : Nat) : (digits width n).length = width := by
  induction width generalizing n with
  | zero => rfl
  | succ width ih => simp [digits, ih]

@[simp]
theorem ofNat_length (width n : Nat) : (ofNat width n).length = width := by
  simp [ofNat]

@[simp]
theorem window_length (bytes : Bytes) (offset size : Nat) :
    (window bytes offset size).length = size := by
  simp only [window, List.length_append, List.length_replicate]
  have := List.length_take_le size (bytes.drop offset)
  omega

end Bytes

end EvmLedger
