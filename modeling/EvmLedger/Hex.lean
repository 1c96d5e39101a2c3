/-
# EvmLedger.Hex -- bytes written as hexadecimal digits

Two digits per byte, high half first; lower case when written, either case when
read.  `decodeDigits` works on the UTF-8 bytes of the text: an odd number of
them is reported before anything else, otherwise the first byte that is no digit
is reported with its position.  `decode` also removes surrounding blanks and one
leading `0x` or `0X`.
-/

import EvmLedger.Bytes

namespace EvmLedger

set_option autoImplicit false

/-! ## White space -/

namespace Text

/-- Whether a character has the Unicode property `White_Space`: the ASCII controls from tab to
carriage return, the space, next line, the no-break space and the typographic spaces and
separators. -/
def isBlank (c : Char) : Bool :=
  let n := c.toNat
  (9 ≤ n && n ≤ 13) || n == 0x20 || n == 0x85 || n == 0xa0 || n == 0x1680 ||
    (0x2000 ≤ n && n ≤ 0x200a) || n == 0x2028 || n == 0x2029 || n == 0x202f ||
    n == 0x205f || n == 0x3000

/-- The characters without the blanks at either end. -/
def trim (text : List Char) : List Char :=
  ((text.dropWhile isBlank).reverse.dropWhile isBlank).reverse

end Text

namespace Hex

/-- Why a text is no hexadecimal byte string. -/
inductive Error where
  /-- the text has an odd number of bytes -/
  | oddLength
  /-- the byte at `position` is no digit -/
  | badDigit (byte : UInt8) (position : Nat)
  deriving DecidableEq, Repr

/-! ## Digits -/

/-- The lower-case digit for a value below sixteen. -/
def digitChar (value : Nat) : Char :=
  if value < 10 then Char.ofNat (48 + value) else Char.ofNat (87 + value)

def digitValue? (byte : UInt8) : Option UInt8 :=
  if 48 ≤ byte ∧ byte ≤ 57 then some (byte - 48)
  else if 97 ≤ byte ∧ byte ≤ 102 then some (byte - 87)
  else if 65 ≤ byte ∧ byte ≤ 70 then some (byte - 55)
  else none

/-! ## Writing -/

/-- The two digits of every byte in turn. -/
def encodeChars (bytes : Bytes) : List Char :=
  bytes.flatMap fun byte => [digitChar (byte.toNat / 16), digitChar (byte.toNat % 16)]

/-- Bytes as lower-case digits. -/
def encode (bytes : Bytes) : String :=
  String.ofList (encodeChars bytes)

def encodePrefixed (bytes : Bytes) : String :=
  String.ofList ('0' :: 'x' :: encodeChars bytes)

/-! ## Reading -/

/-- The value of the digit at `position`, or the complaint about it. -/
def readDigit (byte : UInt8) (position : Nat) : Except Error UInt8 :=
  match digitValue? byte with
  | some value => .ok value
  | none => .error (.badDigit byte position)

/-- Reads pairs of digits; `done` holds the bytes read so far, last one first. -/
def readPairs (done : Bytes) (position : Nat) : Bytes → Except Error Bytes
  | high :: low :: rest => do
      let h ← readDigit high position
      let l ← readDigit low (position + 1)
      readPairs ((h * 16 + l) :: done) (position + 2) rest
  | [_] => .error .oddLength
  | [] => .ok done.reverse

/-- Reads a text that holds digits only, given by its UTF-8 bytes. -/
def decodeDigits (digits : Bytes) : Except Error Bytes :=
  if digits.length % 2 = 1 then .error .oddLength else readPairs [] 0 digits

def utf8 (text : List Char) : Bytes :=
  text.flatMap String.utf8EncodeChar

def strip0x : List Char → List Char
  | '0' :: 'x' :: rest => rest
  | text => text

/-- Removes one leading `0x` or `0X`. -/
def stripRadix : List Char → List Char
  | '0' :: 'x' :: rest => rest
  | '0' :: 'X' :: rest => rest
  | text => text

/-- Reads digits after an optional `0x`; nothing around them is allowed. -/
def decodeExact (text : String) : Except Error Bytes :=
  decodeDigits (utf8 (strip0x text.toList))

/-- Reads digits after an optional `0x` or `0X`, ignoring surrounding blanks. -/
def decode (text : String) : Except Error Bytes :=
  decodeDigits (utf8 (stripRadix (Text.trim text.toList)))

/-! ## Complaints -/

/-- A number in hexadecimal digits without leading zeros. -/
def ofNat (n : Nat) : String :=
  String.ofList (Nat.toDigits 16 n)

/-- A byte as a quoted Latin-1 character; what cannot be shown is escaped. -/
def quoteByte (byte : UInt8) : String :=
  let n := byte.toNat
  let body :=
    if n = 0 then "\\0"
    else if n = 9 then "\\t"
    else if n = 10 then "\\n"
    else if n = 13 then "\\r"
    else if n = 39 then "\\'"
    else if n = 92 then "\\\\"
    else if n < 32 ∨ (127 ≤ n ∧ n ≤ 160) ∨ n = 173 then "\\u\x7b" ++ ofNat n ++ "\x7d"
    else String.singleton (Char.ofNat n)
  "'" ++ body ++ "'"

def Error.message : Error → String
  | .oddLength => "Odd number of digits"
  | .badDigit byte position =>
      "Invalid character " ++ quoteByte byte ++ " at position " ++ toString position

end Hex

end EvmLedger
