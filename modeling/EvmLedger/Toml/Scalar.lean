/-
# EvmLedger.Toml.Scalar -- numbers, dates and truth values

These are words of letters, digits and a few signs, ended by any other
character.  Underscores may stand between two digits; whole numbers have no
leading zeros, may be written to the bases sixteen, eight and two, and must fit
64 bits with a sign.  Dates must exist in the calendar; they have no other use
here and carry no value.
-/

import EvmLedger.Json.Reader

namespace EvmLedger.Toml

set_option autoImplicit false

/-! ## Digits -/

def digitOf? (base : Nat) (c : Char) : Option Nat := do
  let d ← Json.hexDigit? c
  if d < base then some d else none

/-- The value of a word of digits with single underscores between them. -/
def digits? (base : Nat) : List Char → Option (List Nat)
  | [] => none
  | [c] => do some [← digitOf? base c]
  | c :: '_' :: rest => do some ((← digitOf? base c) :: (← digits? base rest))
  | c :: rest => do some ((← digitOf? base c) :: (← digits? base rest))

def ofDigits (base : Nat) (digits : List Nat) : Nat :=
  digits.foldl (fun n d => n * base + d) 0

def splitSign : List Char → Bool × List Char
  | '-' :: rest => (true, rest)
  | '+' :: rest => (false, rest)
  | word => (false, word)

/-- The digits of a decimal number without leading zeros. -/
def plainDigits? (word : List Char) : Option (List Nat) := do
  match ← digits? 10 word with
  | 0 :: _ :: _ => none
  | digits => some digits

/-! ## Numbers -/

/-- A number with a sign, if it fits. -/
def signed? (negative : Bool) (n : Nat) : Option Json :=
  if negative ∧ 0 < n then
    if n ≤ Quantity.signedBound then some (.negative n) else none
  else if n < Quantity.signedBound then some (.natural n) else none

def readInteger (word : List Char) : Option Json :=
  match word with
  | '0' :: 'x' :: rest => do signed? false (ofDigits 16 (← digits? 16 rest))
  | '0' :: 'o' :: rest => do signed? false (ofDigits 8 (← digits? 8 rest))
  | '0' :: 'b' :: rest => do signed? false (ofDigits 2 (← digits? 2 rest))
  | word => do
      let (negative, word) := splitSign word
      signed? negative (ofDigits 10 (← plainDigits? word))

def exponent? (word : List Char) : Option Int := do
  let (negative, word) := splitSign word
  let n := ofDigits 10 (← digits? 10 word)
  some (if negative then -n else n)

/-- The part of a word before one of some characters, and the part after it. -/
def splitAtAny (marks : List Char) (word : List Char) : List Char × Option (List Char) :=
  match word.dropWhile fun c => !marks.contains c with
  | [] => (word, none)
  | _ :: rest => (word.takeWhile fun c => !marks.contains c, some rest)

/-- The double `significand * 10 ^ exponent`; exponents far beyond the range of doubles count as
its ends. -/
def double (significand : Nat) (exponent : Int) : Float :=
  Float.ofScientific significand (exponent < 0) (min exponent.natAbs 20000)

/-- A number with a point or an exponent.  It must not be too large. -/
def readDecimal (word : List Char) : Option Json := do
  let (negative, word) := splitSign word
  let (front, power) := splitAtAny ['e', 'E'] word
  let (whole, places) := splitAtAny ['.'] front
  if power.isNone ∧ places.isNone then none
  else
    let whole ← plainDigits? whole
    let places ← match places with
      | some places => digits? 10 places
      | none => some []
    let exponent ← match power with
      | some power => exponent? power
      | none => some 0
    let x := double (ofDigits 10 (whole ++ places)) (exponent - places.length)
    if x.isInf ∧ !negative then none else some (.float (if negative then -x else x))

/-- Infinity, or no number at all. -/
def readSpecial (word : List Char) : Option Json :=
  match splitSign word with
  | (negative, ['i', 'n', 'f']) => some (.float (if negative then -1 / 0 else 1 / 0))
  | (_, ['n', 'a', 'n']) => some (.float (0 / 0))
  | _ => none

/-! ## Dates -/

def twoDigits? : List Char → Option Nat
  | [a, b] => do some ((← digitOf? 10 a) * 10 + (← digitOf? 10 b))
  | _ => none

def daysIn (year month : Nat) : Nat :=
  if month = 2 then
    if year % 4 = 0 ∧ (year % 100 ≠ 0 ∨ year % 400 = 0) then 29 else 28
  else if month = 4 ∨ month = 6 ∨ month = 9 ∨ month = 11 then 30
  else 31

/-- Whether a word is a day of the calendar. -/
def isDate (word : List Char) : Bool :=
  match word with
  | [y1, y2, y3, y4, '-', m1, m2, '-', d1, d2] =>
      (do
        let year := (← twoDigits? [y1, y2]) * 100 + (← twoDigits? [y3, y4])
        let month ← twoDigits? [m1, m2]
        let day ← twoDigits? [d1, d2]
        return 1 ≤ month && month ≤ 12 && 1 ≤ day && day ≤ daysIn year month) == some true
  | _ => false

/-- Whether two digits stand for a number up to a limit. -/
def isUpTo (limit : Nat) (digits : List Char) : Bool :=
  match twoDigits? digits with
  | some n => n ≤ limit
  | none => false

def isOffset (word : List Char) : Bool :=
  match word with
  | ['Z'] => true
  | ['z'] => true
  | [sign, h1, h2, ':', m1, m2] =>
      (sign == '+' || sign == '-') && isUpTo 23 [h1, h2] && isUpTo 59 [m1, m2]
  | _ => false

/-- Whether a word is a time of the day, with a difference from world time if that is allowed. -/
def isTime (zoned : Bool) (word : List Char) : Bool :=
  match word with
  | h1 :: h2 :: ':' :: m1 :: m2 :: ':' :: s1 :: s2 :: rest =>
      let fraction := match rest with
        | '.' :: rest => (rest.takeWhile Char.isDigit, rest.dropWhile Char.isDigit)
        | rest => (['0'], rest)
      isUpTo 23 [h1, h2] && isUpTo 59 [m1, m2] && isUpTo 60 [s1, s2] && !fraction.1.isEmpty &&
        (fraction.2.isEmpty || (zoned && isOffset fraction.2))
  | _ => false

def isMoment (word : List Char) : Bool :=
  let day := word.take 10
  match word.drop 10 with
  | [] => isDate day || isTime false word
  | 'T' :: time => isDate day && isTime true time
  | 't' :: time => isDate day && isTime true time
  | _ => isTime false word

/-! ## Words -/

def isWordChar (c : Char) : Bool :=
  c.isAlphanum || c == '+' || c == '-' || c == '_' || c == '.' || c == ':'

/-- The word at the start of a text.  A day and a time of the day behind a single space are one
word. -/
def takeWord (text : List Char) : List Char × List Char :=
  let word := text.takeWhile isWordChar
  let rest := text.dropWhile isWordChar
  match rest with
  | ' ' :: after =>
      if isDate word ∧ (after.head?.any Char.isDigit) then
        (word ++ 'T' :: after.takeWhile isWordChar, after.dropWhile isWordChar)
      else (word, rest)
  | rest => (word, rest)

def ofWord (word : List Char) : Option Json :=
  if word = ['t', 'r', 'u', 'e'] then some (.bool true)
  else if word = ['f', 'a', 'l', 's', 'e'] then some (.bool false)
  else if isMoment word then some (.object [])
  else (readInteger word).or ((readDecimal word).or (readSpecial word))

end EvmLedger.Toml
