/-
# EvmLedger.Rlp.Item -- the value tree of the wire format

A value is a byte string or a list of values.  Scalars are byte strings that
hold a number without leading zeros, so zero is the empty string.
-/

import EvmLedger.Address

namespace EvmLedger.Rlp

set_option autoImplicit false

/-- A byte string or a list of values. -/
inductive Item where
  | string (bytes : Bytes)
  | list (items : List Item)
  deriving Repr, BEq, Inhabited

/-- Why bytes are no encoding, or a value is not of the wanted kind. -/
inductive Error where
  /-- the item at `offset` announces more bytes than there are -/
  | inputTooShort (offset needed available : Nat)
  /-- there is no item in the empty string -/
  | empty
  /-- a length is too large to be an offset, or a scalar too large for a word -/
  | lengthOverflow (length : Nat)
  /-- bytes follow the item -/
  | trailingBytes (count : Nat)
  /-- lists are nested deeper than the limit -/
  | tooDeep (limit : Nat)
  /-- a value of the other kind was needed -/
  | unexpectedItem (wanted : String)
  deriving DecidableEq, Repr

def Error.message : Error → String
  | .inputTooShort offset needed available =>
      "rlp input too short: need " ++ toString needed ++ " bytes at offset " ++ toString offset ++
        ", have " ++ toString available
  | .empty => "rlp input is empty"
  | .lengthOverflow length => "rlp length of " ++ toString length ++ " bytes overflows"
  | .trailingBytes count => "rlp has " ++ toString count ++ " trailing bytes"
  | .tooDeep limit => "rlp nesting deeper than " ++ toString limit
  | .unexpectedItem wanted => "unexpected rlp item: expected " ++ wanted

namespace Item

/-! ## Building -/

def empty : Item := .string []

/-- A scalar: the word without leading zero bytes. -/
def ofWord (w : Word) : Item := .string w.toMinimalBytes

/-- A scalar from a number below `2 ^ 256`. -/
def ofNat (n : Nat) : Item := ofWord (Word.ofNat n)

def ofAddress (a : Address) : Item := .string a.toBytes

/-! ## Taking apart -/

def isString : Item → Bool
  | .string _ => true
  | .list _ => false

def isList : Item → Bool
  | .string _ => false
  | .list _ => true

def bytes? : Item → Except Error Bytes
  | .string bytes => .ok bytes
  | .list _ => .error (.unexpectedItem "string")

def items? : Item → Except Error (List Item)
  | .list items => .ok items
  | .string _ => .error (.unexpectedItem "list")

/-- The number in a byte string of at most 32 bytes. -/
def word? (item : Item) : Except Error Word := do
  match Word.ofBytes? (← item.bytes?) with
  | .ok w => .ok w
  | .error e => .error (.lengthOverflow e.length)

end Item

end EvmLedger.Rlp
