/-
# EvmLedger.Rlp.Encode -- writing value trees

One byte below `0x80` stands for itself.  Any other byte string, and every list,
is a header and a payload: the header is a single byte for payloads of at most
55 bytes, and otherwise a byte telling how many length bytes follow, then the
length without leading zeros.

The header of a list is written before its values are, so the length of a written
form is found from the value alone (`encodedLength`).
-/

import EvmLedger.Rlp.Item

namespace EvmLedger.Rlp

set_option autoImplicit false

/-- The header base of byte strings. -/
def stringBase : UInt8 := 0x80

def listBase : UInt8 := 0xc0

/-- The longest payload whose length is part of the header byte. -/
def shortLimit : Nat := 55

/-- The header of a payload of `length` bytes, a 64-bit quantity. -/
def header (base : UInt8) (length : Nat) : Bytes :=
  if length ≤ shortLimit then [base + UInt8.ofNat length]
  else
    let lengthBytes := (Bytes.ofNat 8 length).dropZeros
    (base + 55 + UInt8.ofNat lengthBytes.length) :: lengthBytes

def encodeBytes (bytes : Bytes) : Bytes :=
  match bytes with
  | [byte] => if byte < stringBase then [byte] else header stringBase 1 ++ bytes
  | _ => header stringBase bytes.length ++ bytes

/-- The length of the header of a payload of `length` bytes, a 64-bit quantity. -/
def headerLength (length : Nat) : Nat :=
  if length ≤ shortLimit then 1 else 1 + 8 - Quantity.leadingZeros length / 8

mutual

/-- The length of the written form of a value. -/
def encodedLength : Item → Nat
  | .string [byte] => if byte < stringBase then 1 else headerLength 1 + 1
  | .string bytes => headerLength bytes.length + bytes.length
  | .list items => headerLength (payloadLength items) + payloadLength items

/-- The length of the written forms of values together. -/
def payloadLength : List Item → Nat
  | [] => 0
  | item :: rest => encodedLength item + payloadLength rest

end

mutual

/-- The written form of a value. -/
def encode : Item → Bytes
  | .string bytes => encodeBytes bytes
  | .list items => header listBase (payloadLength items) ++ encodeAll items

/-- The written forms of values, one after the other. -/
def encodeAll : List Item → Bytes
  | [] => []
  | item :: rest => encode item ++ encodeAll rest

end

def encodeList (items : List Item) : Bytes :=
  header listBase (payloadLength items) ++ encodeAll items

/-- The written form of a word as a scalar. -/
def encodeWord (w : Word) : Bytes :=
  encodeBytes w.toMinimalBytes

end EvmLedger.Rlp
