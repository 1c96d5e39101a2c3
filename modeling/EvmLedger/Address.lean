/-
# EvmLedger.Address -- twenty-byte account addresses

Addresses are ordered by their bytes, which is the order of the numbers they
denote.  An address widens to a word by leading zeros, and a word or a digest
narrows to its low twenty bytes.
-/

import EvmLedger.Hex
import EvmLedger.Word

namespace EvmLedger

set_option autoImplicit false

structure Address where
  bits : BitVec 160
  deriving DecidableEq, Hashable, Repr

namespace Address

instance : Inhabited Address := ⟨⟨0⟩⟩

instance : Ord Address := ⟨compareOn Address.bits⟩

instance : Std.TransOrd Address :=
  inferInstanceAs (Std.TransCmp (compareOn Address.bits))

instance : Std.LawfulEqOrd Address where
  compare_self {a} := (Std.ReflOrd.compare_self : compare a.bits a.bits = .eq)
  eq_of_compare {a b} h := by
    have same : compare a.bits b.bits = .eq := h
    cases a; cases b
    exact congrArg Address.mk (Std.LawfulEqOrd.eq_of_compare same)

inductive Error where
  /-- the text is not hexadecimal -/
  | invalidHex (cause : Hex.Error)
  /-- the byte string is not twenty bytes long -/
  | invalidLength (length : Nat)
  deriving DecidableEq, Repr

def Error.message : Error → String
  | .invalidHex cause => "invalid hex string: " ++ cause.message
  | .invalidLength length =>
      "invalid address length: expected 20 bytes, got " ++ toString length

def zero : Address := ⟨0⟩

/-- The address made of the last twenty bytes, with zeros in front of fewer. -/
def ofLowBytes (bytes : Bytes) : Address :=
  ⟨BitVec.ofNat 160 (bytes.takeLast 20).toNat⟩

/-- The address of exactly twenty bytes. -/
def ofBytes? (bytes : Bytes) : Except Error Address :=
  if bytes.length = 20 then .ok (ofLowBytes bytes) else .error (.invalidLength bytes.length)

def toBytes (a : Address) : Bytes :=
  Bytes.ofNat 20 a.bits.toNat

/-- Reads forty digits after an optional `0x`. -/
def ofHex? (text : String) : Except Error Address :=
  match Hex.decodeExact text with
  | .ok bytes => ofBytes? bytes
  | .error cause => .error (.invalidHex cause)

/-- The low 160 bits of a word. -/
def ofWord (w : Word) : Address :=
  ⟨w.setWidth 160⟩

/-- The address widened by leading zeros. -/
def toWord (a : Address) : Word :=
  a.bits.setWidth 256

def isZero (a : Address) : Bool := a == zero

def toHex (a : Address) : String :=
  Hex.encodePrefixed a.toBytes

/-- The digits with the name of the type around them. -/
def describe (a : Address) : String :=
  "Address(" ++ a.toHex ++ ")"

end Address

end EvmLedger
