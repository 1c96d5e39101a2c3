/-
# EvmLedger.Decimal -- doubles in decimal digits

A finite double that is not negative is a whole number below `2 ^ 53` times a power
of two (`Binary`).  The bits hold the fraction of the whole number and a biased
exponent; the leading one is left out unless the exponent is the smallest.  So
everything below is done with whole numbers, and exactly.

The reals that round to a positive double form an interval, closed when the whole
number is even.  `shortest` looks for a decimal in it with one digit, two digits and
so on: the two decimals next to the value on the grid of that many digits are tried,
the first grid with one of them in the interval wins, and of two the nearer one is
taken.

`fixed` keeps a fixed number of places instead.  A value half way between two
neighbours goes to the even one.
-/

namespace EvmLedger.Decimal

set_option autoImplicit false

/-! ## Doubles as whole numbers -/

/-- The number `mantissa * 2 ^ exponent`. -/
structure Binary where
  mantissa : Nat
  exponent : Int
  /-- whether the next smaller double is only half as far as the next larger one -/
  uneven : Bool
  deriving DecidableEq, Repr

def leadingOne : Nat := Nat.pow 2 52

def Binary.ofBits (bits : UInt64) : Binary :=
  let fraction := bits.toNat % leadingOne
  let biased := bits.toNat / leadingOne % 2048
  let mantissa := if biased = 0 then fraction else fraction + leadingOne
  ⟨mantissa, (max biased 1 : Nat) - 1075, fraction = 0 ∧ 1 < biased⟩

namespace Binary

/-- The factor of the mantissa when the number is written as a fraction. -/
def up (b : Binary) : Nat := Nat.pow 2 b.exponent.toNat

/-- The denominator when the number is written as a fraction. -/
def down (b : Binary) : Nat := Nat.pow 2 (-b.exponent).toNat

end Binary

/-! ## The shortest decimal that reads back -/

/-- The decimal `digits * 10 ^ exponent`. -/
structure Scientific where
  digits : Nat
  exponent : Int
  deriving DecidableEq, Repr

/-- A positive double with the interval of the reals that round to it, each bound being a whole
number over `unit`. -/
structure Interval where
  low : Nat
  value : Nat
  high : Nat
  unit : Nat
  /-- whether the ends belong to the interval -/
  closed : Bool

def Interval.ofBits (bits : UInt64) : Interval :=
  let b := Binary.ofBits bits
  let m := b.mantissa
  let below := if b.uneven then 1 else 2
  ⟨(4 * m - below) * b.up, 4 * m * b.up, (4 * m + 2) * b.up, 4 * b.down, m % 2 = 0⟩

def Interval.contains (i : Interval) (d : Scientific) : Bool :=
  let point := d.digits * Nat.pow 10 d.exponent.toNat * i.unit
  let scale := Nat.pow 10 (-d.exponent).toNat
  if i.closed then i.low * scale ≤ point && point ≤ i.high * scale
  else i.low * scale < point && point < i.high * scale

/-- The two neighbours of the value on the grid of an exponent, the nearer one first. -/
def Interval.candidates (i : Interval) (exponent : Int) : List Scientific :=
  let num := i.value * Nat.pow 10 (-exponent).toNat
  let den := i.unit * Nat.pow 10 exponent.toNat
  let lower := num / den
  let rest := num % den
  let lowerFirst := 2 * rest < den || (2 * rest == den && lower % 2 == 0)
  if lowerFirst then [⟨lower, exponent⟩, ⟨lower + 1, exponent⟩]
  else [⟨lower + 1, exponent⟩, ⟨lower, exponent⟩]

/-- The number of digits before the decimal point, negative when zeros follow the point; `fuel`
bounds the zeros that are counted. -/
def Interval.magnitude (i : Interval) : Int :=
  if i.unit ≤ i.value then ((Nat.toDigits 10 (i.value / i.unit)).length : Nat)
  else go 400 (i.value * 10) 0
where
  /-- Counts the zeros after the point. -/
  go : Nat → Nat → Int → Int
    | 0, _, zeros => zeros
    | fuel + 1, scaled, zeros =>
        if i.unit ≤ scaled then zeros else go fuel (scaled * 10) (zeros - 1)

/-- The first hit on grids of `digits` digits and more, of which `fuel` are tried. -/
def Interval.search (i : Interval) (magnitude : Int) : (fuel digits : Nat) → Scientific
  | 0, _ => ⟨0, 0⟩
  | fuel + 1, digits =>
      match (i.candidates (magnitude - digits)).find? i.contains with
      | some d => d
      | none => search i magnitude fuel (digits + 1)

/-- The shortest decimal that reads back as a positive finite double. -/
def shortest (bits : UInt64) : Scientific :=
  let i := Interval.ofBits bits
  i.search i.magnitude 17 1

/-! ## A fixed number of places -/

/-- The whole number nearest to a quotient, the even one of two. -/
def roundDiv (num den : Nat) : Nat :=
  let lower := num / den
  let rest := num % den
  if 2 * rest < den ∨ (2 * rest = den ∧ lower % 2 = 0) then lower else lower + 1

/-- A double that is not negative, given by its bits, in units of `10 ^ -places`. -/
def scaled (places : Nat) (bits : UInt64) : Nat :=
  let b := Binary.ofBits bits
  roundDiv (b.mantissa * Nat.pow 10 places * b.up) b.down

/-- The text of a number of units of `10 ^ -places`. -/
def pointed (places units : Nat) : String :=
  let digits := toString (units % Nat.pow 10 places)
  toString (units / Nat.pow 10 places) ++ "." ++
    String.ofList (List.replicate (places - digits.length) '0') ++ digits

/-- The text of a double that is not negative, with a fixed number of places. -/
def fixed (places : Nat) (x : Float) : String :=
  pointed places (scaled places x.toBits)

end EvmLedger.Decimal
