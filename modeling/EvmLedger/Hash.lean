/-
# EvmLedger.Hash -- thirty-two byte digests

A hash holds the same 256 bits as a word but is only ever compared, shown or
handed on; `ofWord` and `toWord` move between the two readings.
-/

import EvmLedger.Hex
import EvmLedger.Word

namespace EvmLedger

set_option autoImplicit false

structure Hash where
  bits : BitVec 256
  deriving DecidableEq, Hashable, Repr

namespace Hash

instance : Inhabited Hash := ⟨⟨0⟩⟩

instance : Ord Hash := ⟨compareOn Hash.bits⟩

instance : Std.TransOrd Hash :=
  inferInstanceAs (Std.TransCmp (compareOn Hash.bits))

instance : Std.LawfulEqOrd Hash where
  compare_self {a} := (Std.ReflOrd.compare_self : compare a.bits a.bits = .eq)
  eq_of_compare {a b} h := by
    have same : compare a.bits b.bits = .eq := h
    cases a; cases b
    exact congrArg Hash.mk (Std.LawfulEqOrd.eq_of_compare same)

inductive Error where
  /-- the text is not hexadecimal -/
  | invalidHex (cause : Hex.Error)
  /-- the byte string is not thirty-two bytes long -/
  | invalidLength (length : Nat)
  deriving DecidableEq, Repr

def Error.message : Error → String
  | .invalidHex cause => "invalid hex string: " ++ cause.message
  | .invalidLength length =>
      "invalid hash length: expected 32 bytes, got " ++ toString length

def zero : Hash := ⟨0⟩

def ofWord (w : Word) : Hash := ⟨w⟩

def toWord (h : Hash) : Word := h.bits

def toBytes (h : Hash) : Bytes :=
  Word.toBytes h.bits

/-- The hash of exactly thirty-two bytes. -/
def ofBytes? (bytes : Bytes) : Except Error Hash :=
  if bytes.length = 32 then .ok ⟨Word.ofBytes bytes⟩ else .error (.invalidLength bytes.length)

/-- Reads sixty-four digits after an optional `0x`. -/
def ofHex? (text : String) : Except Error Hash :=
  match Hex.decodeExact text with
  | .ok bytes => ofBytes? bytes
  | .error cause => .error (.invalidHex cause)

def isZero (h : Hash) : Bool := h == zero

def toHex (h : Hash) : String :=
  Hex.encodePrefixed h.toBytes

/-- The digits with the name of the type around them. -/
def describe (h : Hash) : String :=
  "H256(" ++ h.toHex ++ ")"

end Hash

end EvmLedger
