/-
# EvmLedger.Json.Reader -- reading JSON texts

Arrays and objects nest at most 127 deep.  Strings hold no bare control
characters, and escaped surrogates come in pairs.  White space is the space,
the tab, the line feed and the carriage return.

Recursion is on the nesting still allowed; within one string, array or object it
is bounded by the size of the whole text, of which every item takes some.
-/

import EvmLedger.Json.Number

namespace EvmLedger.Json

set_option autoImplicit false

/-- The deepest nesting that is read. -/
def maxDepth : Nat := 127

def skipSpace (text : List Char) : List Char :=
  text.dropWhile fun c => c == ' ' || c == '\n' || c == '\t' || c == '\r'

/-! ## Strings -/

def hexDigit? (c : Char) : Option Nat :=
  if '0' ≤ c ∧ c ≤ '9' then some (c.toNat - 48)
  else if 'a' ≤ c ∧ c ≤ 'f' then some (c.toNat - 87)
  else if 'A' ≤ c ∧ c ≤ 'F' then some (c.toNat - 55)
  else none

def readUnit : List Char → Option (Nat × List Char)
  | a :: b :: c :: d :: rest => do
      let a ← hexDigit? a
      let b ← hexDigit? b
      let c ← hexDigit? c
      let d ← hexDigit? d
      some (((a * 16 + b) * 16 + c) * 16 + d, rest)
  | _ => none

/-- The character after an escaped `u`: one unit, or a pair of surrogates. -/
def readUnicode (text : List Char) : Option (Char × List Char) := do
  let (unit, rest) ← readUnit text
  if 0xdc00 ≤ unit ∧ unit ≤ 0xdfff then none
  else if 0xd800 ≤ unit ∧ unit ≤ 0xdbff then
    match rest with
    | '\\' :: 'u' :: rest => do
        let (low, rest) ← readUnit rest
        if 0xdc00 ≤ low ∧ low ≤ 0xdfff then
          some (Char.ofNat (0x10000 + (unit - 0xd800) * 0x400 + (low - 0xdc00)), rest)
        else none
    | _ => none
  else some (Char.ofNat unit, rest)

def readEscape (text : List Char) : Option (Char × List Char) :=
  match text with
  | '"' :: rest => some ('"', rest)
  | '\\' :: rest => some ('\\', rest)
  | '/' :: rest => some ('/', rest)
  | 'b' :: rest => some ('\x08', rest)
  | 'f' :: rest => some ('\x0c', rest)
  | 'n' :: rest => some ('\n', rest)
  | 'r' :: rest => some ('\r', rest)
  | 't' :: rest => some ('\t', rest)
  | 'u' :: rest => readUnicode rest
  | _ => none

/-- Reads a string after its opening quote; `done` holds the characters so far, last one first. -/
def readString : (fuel : Nat) → (done : List Char) → List Char → Option (String × List Char)
  | 0, _, _ => none
  | _ + 1, _, [] => none
  | fuel + 1, done, c :: rest =>
      if c = '"' then some (String.ofList done.reverse, rest)
      else if c = '\\' then do
        let (c, rest) ← readEscape rest
        readString fuel (c :: done) rest
      else if c.toNat < 32 then none
      else readString fuel (c :: done) rest

/-! ## Values -/

/-- How to read a value at the start of a text. -/
abbrev ValueReader := List Char → Option (Json × List Char)

def readItems (readValue : ValueReader) :
    (fuel : Nat) → (done : List Json) → List Char → Option (Json × List Char)
  | 0, _, _ => none
  | fuel + 1, done, text => do
      let (item, rest) ← readValue (skipSpace text)
      match skipSpace rest with
      | ',' :: rest => readItems readValue fuel (item :: done) rest
      | ']' :: rest => some (.array (item :: done).reverse, rest)
      | _ => none

/-- Reads the fields of an object after its first brace or a comma, in a text of `size`
characters. -/
def readFields (size : Nat) (readValue : ValueReader) :
    (fuel : Nat) → (done : List (String × Json)) → List Char → Option (Json × List Char)
  | 0, _, _ => none
  | fuel + 1, done, text =>
      match skipSpace text with
      | '"' :: rest => do
          let (name, rest) ← readString (size + 1) [] rest
          match skipSpace rest with
          | ':' :: rest => do
              let (value, rest) ← readValue (skipSpace rest)
              let done := (name, value) :: done
              match skipSpace rest with
              | ',' :: rest => readFields size readValue fuel done rest
              | '\x7d' :: rest => some (.object done.reverse, rest)
              | _ => none
          | _ => none
      | _ => none

def readArray (size : Nat) (readValue : ValueReader) (text : List Char) :
    Option (Json × List Char) :=
  match skipSpace text with
  | ']' :: rest => some (.array [], rest)
  | text => readItems readValue (size + 1) [] text

def readObject (size : Nat) (readValue : ValueReader) (text : List Char) :
    Option (Json × List Char) :=
  match skipSpace text with
  | '\x7d' :: rest => some (.object [], rest)
  | text => readFields size readValue (size + 1) [] text

/-- Reads a value, given how to read those inside it. -/
def readValueWith (size : Nat) (inner : Option ValueReader) : ValueReader
  | 'n' :: 'u' :: 'l' :: 'l' :: rest => some (.null, rest)
  | 't' :: 'r' :: 'u' :: 'e' :: rest => some (.bool true, rest)
  | 'f' :: 'a' :: 'l' :: 's' :: 'e' :: rest => some (.bool false, rest)
  | '"' :: rest => (readString (size + 1) [] rest).map fun (s, rest) => (.string s, rest)
  | '[' :: rest => do readArray size (← inner) rest
  | '\x7b' :: rest => do readObject size (← inner) rest
  | text => readNumber text

/-- Reads a value in which arrays and objects nest at most `depth` deep, in a text of `size`
characters. -/
def readValue (size : Nat) : (depth : Nat) → ValueReader
  | 0 => readValueWith size none
  | depth + 1 => readValueWith size (some (readValue size depth))

def parse (text : String) : Option Json := do
  let text := text.toList
  let (value, rest) ← readValue text.length maxDepth (skipSpace text)
  if (skipSpace rest).isEmpty then some value else none

end EvmLedger.Json
