/-
# EvmLedger.Toml.Reader -- reading configuration files

A document is a sequence of lines: entries, headers of tables, headers of items
in lists of tables, comments and empty lines.  Values may span lines only inside
arrays and in strings with three quotes.

Recursion is on the nesting still allowed; within one string, array or table it
is bounded by the size of the whole text.
-/

import EvmLedger.Toml.Scalar
import EvmLedger.Toml.Table

namespace EvmLedger.Toml

set_option autoImplicit false

/-! ## Blanks and comments -/

def skipBlank (text : List Char) : List Char :=
  text.dropWhile fun c => c == ' ' || c == '\t'

def isPrintable (c : Char) : Bool :=
  c == '\t' || (32 ≤ c.toNat && c.toNat ≠ 127)

def skipComment : List Char → List Char
  | '#' :: rest => rest.dropWhile isPrintable
  | text => text

def newline? : List Char → Option (List Char)
  | '\n' :: rest => some rest
  | '\r' :: '\n' :: rest => some rest
  | _ => none

/-- The text after blanks, comments and line breaks, at most `fuel` of each. -/
def skipLines : (fuel : Nat) → List Char → List Char
  | 0, text => text
  | fuel + 1, text =>
      let text := skipComment (skipBlank text)
      match newline? text with
      | some rest => skipLines fuel rest
      | none => text

/-- The rest of a line behind an entry or a header: blanks, a comment, and a line break or the end
of the text. -/
def endLine (text : List Char) : Option (List Char) :=
  let text := skipComment (skipBlank text)
  if text.isEmpty then some [] else newline? text

/-! ## Strings -/

def charOf? (n : Nat) : Option Char :=
  if n < 0xd800 ∨ (0xdfff < n ∧ n < 0x110000) then some (Char.ofNat n) else none

def readEscape (text : List Char) : Option (Char × List Char) :=
  match text with
  | 'b' :: rest => some ('\x08', rest)
  | 't' :: rest => some ('\t', rest)
  | 'n' :: rest => some ('\n', rest)
  | 'f' :: rest => some ('\x0c', rest)
  | 'r' :: rest => some ('\r', rest)
  | '"' :: rest => some ('"', rest)
  | '\\' :: rest => some ('\\', rest)
  | 'u' :: rest => do
      let (n, rest) ← Json.readUnit rest
      some (← charOf? n, rest)
  | 'U' :: rest => do
      let (high, rest) ← Json.readUnit rest
      let (low, rest) ← Json.readUnit rest
      some (← charOf? (high * 65536 + low), rest)
  | _ => none

/-- Reads a string after its opening quote; `done` holds the characters so far, last one first.
Only strings in double quotes have escapes. -/
def readLine (quote : Char) : (fuel : Nat) → (done : List Char) → List Char →
    Option (String × List Char)
  | 0, _, _ => none
  | _ + 1, _, [] => none
  | fuel + 1, done, c :: rest =>
      if c = quote then some (String.ofList done.reverse, rest)
      else if c = '\\' ∧ quote = '"' then do
        let (c, rest) ← readEscape rest
        readLine quote fuel (c :: done) rest
      else if isPrintable c then readLine quote fuel (c :: done) rest
      else none

/-- The text after blanks and line breaks, given that there is a line break behind blanks. -/
def foldLine? (text : List Char) : Option (List Char) := do
  let rest ← newline? (skipBlank text)
  some (rest.dropWhile fun c => c == ' ' || c == '\t' || c == '\n' || c == '\r')

/-- Reads a string of several lines after its three opening quotes.  Up to two quotes may stand
anywhere, also right before the closing ones; a backslash at the end of a line removes the line
break and the blanks after it. -/
def readBlock (quote : Char) : (fuel : Nat) → (done : List Char) → List Char →
    Option (String × List Char)
  | 0, _, _ => none
  | _ + 1, _, [] => none
  | fuel + 1, done, c :: rest =>
      if c = quote then
        let run := ((c :: rest).take 5).takeWhile (· == quote)
        let after := (c :: rest).drop run.length
        if run.length < 3 then readBlock quote fuel (run ++ done) after
        else some (String.ofList (run.drop 3 ++ done).reverse, after)
      else if c = '\\' ∧ quote = '"' then
        match foldLine? rest with
        | some rest => readBlock quote fuel done rest
        | none => do
            let (c, rest) ← readEscape rest
            readBlock quote fuel (c :: done) rest
      else
        match newline? (c :: rest) with
        | some rest => readBlock quote fuel ('\n' :: done) rest
        | none => if isPrintable c then readBlock quote fuel (c :: done) rest else none

def readText (size : Nat) (quote : Char) (text : List Char) : Option (String × List Char) :=
  match text with
  | a :: b :: rest =>
      if a = quote ∧ b = quote then
        readBlock quote (size + 1) [] ((newline? rest).getD rest)
      else readLine quote (size + 1) [] text
  | text => readLine quote (size + 1) [] text

/-! ## Keys -/

/-- Whether a character may stand in a key without quotes. -/
def isKeyChar (c : Char) : Bool :=
  c.isAlphanum || c == '_' || c == '-'

def readKeyPart (size : Nat) (text : List Char) : Option (String × List Char) :=
  match text with
  | '"' :: rest => readLine '"' (size + 1) [] rest
  | '\'' :: rest => readLine '\'' (size + 1) [] rest
  | text =>
      let key := text.takeWhile isKeyChar
      if key.isEmpty then none else some (String.ofList key, text.dropWhile isKeyChar)

/-- Reads a key of one or more parts with points between them: all parts but the last one, and the
last one. -/
def readKey (size : Nat) : (fuel : Nat) → List Char →
    Option ((List String × String) × List Char)
  | 0, _ => none
  | fuel + 1, text => do
      let (part, rest) ← readKeyPart size (skipBlank text)
      match skipBlank rest with
      | '.' :: rest => do
          let ((path, key), rest) ← readKey size fuel rest
          some ((part :: path, key), rest)
      | rest => some (([], part), rest)

/-! ## Values -/

/-- How to read a value at the start of a text. -/
abbrev ValueReader := List Char → Option (Json × List Char)

/-- An entry: the path to its table, its key there, and its value. -/
structure Entry where
  path : List String
  key : String
  value : Json

def Entry.define (e : Entry) (entries : Entries) : Option Entries :=
  entries.defineDotted e.path e.key (.value e.value)

def readEntry (size : Nat) (readValue : ValueReader) (text : List Char) :
    Option (Entry × List Char) := do
  let ((path, key), rest) ← readKey size (size + 1) text
  match rest with
  | '=' :: rest => do
      let (value, rest) ← readValue (skipBlank rest)
      some (⟨path, key, value⟩, rest)
  | _ => none

/-- Reads the items of an array after its bracket or a comma. -/
def readItems (size : Nat) (readValue : ValueReader) :
    (fuel : Nat) → (done : List Json) → List Char → Option (Json × List Char)
  | 0, _, _ => none
  | fuel + 1, done, text =>
      match skipLines (size + 1) text with
      | ']' :: rest => some (.array done.reverse, rest)
      | text => do
          let (item, rest) ← readValue text
          match skipLines (size + 1) rest with
          | ',' :: rest => readItems size readValue fuel (item :: done) rest
          | ']' :: rest => some (.array (item :: done).reverse, rest)
          | _ => none

/-- Reads the entries of a table on one line after its brace or a comma. -/
def readInline (size : Nat) (readValue : ValueReader) :
    (fuel : Nat) → Entries → List Char → Option (Json × List Char)
  | 0, _, _ => none
  | fuel + 1, entries, text => do
      let (entry, rest) ← readEntry size readValue text
      let entries ← entry.define entries
      match skipBlank rest with
      | ',' :: rest => readInline size readValue fuel entries rest
      | '\x7d' :: rest => some (.object (fieldsJson entries), rest)
      | _ => none

def readValueWith (size : Nat) (inner : Option ValueReader) : ValueReader
  | '"' :: rest => (readText size '"' rest).map fun (s, rest) => (.string s, rest)
  | '\'' :: rest => (readText size '\'' rest).map fun (s, rest) => (.string s, rest)
  | '[' :: rest => do readItems size (← inner) (size + 1) [] rest
  | '\x7b' :: rest => do
      let readValue ← inner
      match skipBlank rest with
      | '\x7d' :: rest => some (.object [], rest)
      | text => readInline size readValue (size + 1) [] text
  | text =>
      let (word, rest) := takeWord text
      (ofWord word).map fun value => (value, rest)

/-- The deepest nesting of arrays and tables on one line that is read. -/
def maxDepth : Nat := 79

/-- Reads a value in which arrays and tables nest at most `depth` deep. -/
def readValue (size : Nat) : (depth : Nat) → ValueReader
  | 0 => readValueWith size none
  | depth + 1 => readValueWith size (some (readValue size depth))

/-! ## Documents -/

/-- A document that has been read in part. -/
structure Document where
  root : Entries := []
  /-- the path of the table that entries go to -/
  current : List String := []

def readHeader (size : Nat) (d : Document) (text : List Char) : Option (Document × List Char) :=
  match text with
  | '[' :: rest => do
      let ((path, key), rest) ← readKey size (size + 1) rest
      match rest with
      | ']' :: ']' :: rest =>
          some (⟨← d.root.modify path (Entries.openItem key), path ++ [key]⟩, rest)
      | _ => none
  | text => do
      let ((path, key), rest) ← readKey size (size + 1) text
      match rest with
      | ']' :: rest =>
          some (⟨← d.root.modify path (Entries.openTable key), path ++ [key]⟩, rest)
      | _ => none

def readAssignment (size : Nat) (d : Document) (text : List Char) :
    Option (Document × List Char) := do
  let (entry, rest) ← readEntry size (readValue size maxDepth) text
  some (⟨← d.root.modify d.current entry.define, d.current⟩, rest)

/-- Reads the lines of a document, at most `fuel` of them. -/
def readLines (size : Nat) : (fuel : Nat) → Document → List Char → Option Document
  | 0, _, _ => none
  | fuel + 1, d, text =>
      match skipLines (size + 1) text with
      | [] => some d
      | '[' :: rest => do
          let (d, rest) ← readHeader size d rest
          readLines size fuel d (← endLine rest)
      | text => do
          let (d, rest) ← readAssignment size d text
          readLines size fuel d (← endLine rest)

def dropMark : List Char → List Char
  | '\ufeff' :: rest => rest
  | text => text

/-- The table that a document describes. -/
def parse (text : String) : Option Json := do
  let text := dropMark text.toList
  let d ← readLines text.length (text.length + 1) {} text
  some (.object (fieldsJson d.root))

end EvmLedger.Toml
