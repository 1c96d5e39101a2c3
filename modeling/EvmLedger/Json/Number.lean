/-
# EvmLedger.Json.Number -- reading and writing JSON numbers

Digits are collected into a 64-bit significand.  A whole number that fits stays
whole.  Everything else becomes a double in two roundings: the significand is
rounded to a double and then multiplied or divided by a power of ten, digits
beyond the significand only counting as powers of ten, or not at all behind the
point.  A result beyond the largest double is refused; one below the smallest is
zero.

Doubles are written with the fewest digits that read back, positionally when
the point falls within the first sixteen places or at most five places in front
of the digits, and with an exponent otherwise.
-/

import EvmLedger.Decimal
import EvmLedger.Json.Basic

namespace EvmLedger.Json

set_option autoImplicit false

/-! ## Reading -/

def digit? (c : Char) : Option Nat :=
  if '0' ≤ c ∧ c ≤ '9' then some (c.toNat - 48) else none

def takeDigits : List Char → List Nat × List Char
  | [] => ([], [])
  | c :: rest =>
      match digit? c with
      | some d =>
          let (digits, rest) := takeDigits rest
          (d :: digits, rest)
      | none => ([], c :: rest)

/-- Appends digits to a significand as long as it stays a 64-bit quantity; gives the significand
and the digits that were left. -/
def appendDigits (significand : Nat) : List Nat → Nat × List Nat
  | [] => (significand, [])
  | d :: rest =>
      if significand * 10 + d < Quantity.bound then appendDigits (significand * 10 + d) rest
      else (significand, d :: rest)

/-- A power of ten as a double, for exponents up to 308. -/
def powerOfTen (exponent : Nat) : Float :=
  Float.ofScientific 1 false exponent

/-- Scales a double by a power of ten; `fuel` bounds the steps of 308 places. -/
def scale : Nat → Float → Int → Option Float
  | 0, _, _ => some 0
  | fuel + 1, x, exponent =>
      if exponent.natAbs ≤ 308 then
        if 0 ≤ exponent then
          let y := x * powerOfTen exponent.natAbs
          if y.isInf then none else some y
        else some (x / powerOfTen exponent.natAbs)
      else if x == 0 then some x
      else if 0 ≤ exponent then none
      else scale fuel (x / powerOfTen 308) (exponent + 308)

/-- The double `significand * 10 ^ exponent` with its sign. -/
def toDouble (negative : Bool) (significand : Nat) (exponent : Int) : Option Json := do
  let x ← scale 8 significand.toUInt64.toFloat exponent
  some (.float (if negative then -x else x))

/-- The largest exponent that is not taken for infinite. -/
def exponentLimit : Nat := 2147483647

def readExponent (negative : Bool) (significand : Nat) (start : Int) (text : List Char) :
    Option (Json × List Char) := do
  let (down, text) := match text with
    | '+' :: rest => (false, rest)
    | '-' :: rest => (true, rest)
    | text => (false, text)
  let (digits, rest) := takeDigits text
  if digits.isEmpty then none
  else
    let size := digits.foldl (fun n d => n * 10 + d) 0
    if exponentLimit < size then
      if significand ≠ 0 ∧ !down then none
      else some (.float (if negative then -0.0 else 0.0), rest)
    else
      let value ← toDouble negative significand (if down then start - size else start + size)
      some (value, rest)

def readTail (negative : Bool) (significand : Nat) (exponent : Int) (text : List Char) :
    Option (Json × List Char) :=
  match text with
  | 'e' :: rest => readExponent negative significand exponent rest
  | 'E' :: rest => readExponent negative significand exponent rest
  | rest => do
      let value ← toDouble negative significand exponent
      some (value, rest)

def readFraction (negative : Bool) (significand : Nat) (start : Int) (text : List Char) :
    Option (Json × List Char) :=
  let (digits, rest) := takeDigits text
  if digits.isEmpty then none
  else
    let (significand, left) := appendDigits significand digits
    readTail negative significand (start - (digits.length - left.length : Nat)) rest

def wholeNumber (negative : Bool) (significand : Nat) : Json :=
  if !negative then .natural significand
  else if 0 < significand ∧ significand ≤ Quantity.signedBound then .negative significand
  else .float (-significand.toUInt64.toFloat)

def readUnsigned (negative : Bool) (text : List Char) : Option (Json × List Char) :=
  let (digits, rest) := takeDigits text
  match digits with
  | [] => none
  | 0 :: _ :: _ => none
  | digits =>
      let (significand, left) := appendDigits 0 digits
      match rest with
      | '.' :: rest => readFraction negative significand left.length rest
      | 'e' :: rest => readExponent negative significand left.length rest
      | 'E' :: rest => readExponent negative significand left.length rest
      | rest =>
          if left.isEmpty then some (wholeNumber negative significand, rest)
          else do
            let value ← toDouble negative significand left.length
            some (value, rest)

def readNumber (text : List Char) : Option (Json × List Char) :=
  match text with
  | '-' :: rest => readUnsigned true rest
  | text => readUnsigned false text

/-! ## Writing -/

/-- The text of the decimal `digits * 10 ^ exponent`. -/
def decimalText (d : Decimal.Scientific) : String :=
  let digits := toString d.digits
  let count : Int := digits.length
  let point := count + d.exponent
  let zeros (n : Int) : String := String.ofList (List.replicate n.toNat '0')
  let front (n : Nat) : String := String.ofList (digits.toList.take n)
  let back (n : Nat) : String := String.ofList (digits.toList.drop n)
  if 0 ≤ d.exponent ∧ point ≤ 16 then digits ++ zeros d.exponent ++ ".0"
  else if 0 < point ∧ point ≤ 16 then front point.toNat ++ "." ++ back point.toNat
  else if -5 < point ∧ point ≤ 0 then "0." ++ zeros (-point) ++ digits
  else
    let exponent := "e" ++ toString (point - 1)
    if count = 1 then digits ++ exponent else front 1 ++ "." ++ back 1 ++ exponent

/-- The text of a finite double. -/
def floatText (x : Float) : String :=
  let bits := x.toBits
  let sign := if Quantity.signedBound ≤ bits.toNat then "-" else ""
  let magnitude := bits.toNat % Quantity.signedBound
  if magnitude = 0 then sign ++ "0.0"
  else sign ++ decimalText (Decimal.shortest magnitude.toUInt64)

end EvmLedger.Json
