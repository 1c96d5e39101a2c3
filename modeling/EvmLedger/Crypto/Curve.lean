/-
# EvmLedger.Crypto.Curve -- the group of the curve y² = x³ + 7

Points of secp256k1 over the field of `fieldSize` elements.  Sums are computed
in Jacobian coordinates, where `(x, y, z)` stands for the affine point
`(x / z², y / z³)` and `z = 0` for the point at infinity, so that only the last
step divides.
-/

namespace EvmLedger.Crypto.Curve

set_option autoImplicit false

/-- The number of field elements, a prime. -/
def fieldSize : Nat := 0xfffffffffffffffffffffffffffffffffffffffffffffffffffffffefffffc2f

/-- The number of points, a prime. -/
def order : Nat := 0xfffffffffffffffffffffffffffffffebaaedce6af48a03bbfd25e8cd0364141

/-! ## Modular arithmetic -/

/-- The power of a base, for exponents below `2 ^ bits`. -/
def power (modulus : Nat) : (bits base exponent : Nat) → Nat
  | 0, _, _ => 1 % modulus
  | bits + 1, base, exponent =>
      let rest := power modulus bits (base * base % modulus) (exponent / 2)
      if exponent % 2 = 1 then base * rest % modulus else rest

/-- The inverse modulo a 256-bit prime; zero for zero. -/
def inverse (modulus value : Nat) : Nat :=
  power modulus 256 (value % modulus) (modulus - 2)

def minus (a b : Nat) : Nat := (a + (fieldSize - b % fieldSize)) % fieldSize

def times (a b : Nat) : Nat := a * b % fieldSize

/-! ## Points -/

inductive Point where
  | infinity
  | affine (x y : Nat)
  deriving DecidableEq, Repr

/-- A point in Jacobian coordinates. -/
structure Jacobian where
  x : Nat
  y : Nat
  z : Nat

def generator : Point :=
  .affine 0x79be667ef9dcbbac55a06295ce870b07029bfcdb2dce28d959f2815b16f81798
    0x483ada7726a3c4655da4fbfc0e1108a8fd17b448a68554199c47d08ffb10d4b8

namespace Jacobian

def infinity : Jacobian := ⟨1, 1, 0⟩

/-- A point with `z = 1`. -/
def ofPoint : Point → Jacobian
  | .infinity => infinity
  | .affine x y => ⟨x, y, 1⟩

def toPoint (p : Jacobian) : Point :=
  if p.z = 0 then .infinity
  else
    let u := inverse fieldSize p.z
    let u2 := times u u
    .affine (times p.x u2) (times p.y (times u2 u))

def double (p : Jacobian) : Jacobian :=
  if p.z = 0 ∨ p.y = 0 then infinity
  else
    let y2 := times p.y p.y
    let s := times 4 (times p.x y2)
    let m := times 3 (times p.x p.x)
    let x := minus (times m m) (2 * s)
    ⟨x, minus (times m (minus s x)) (times 8 (times y2 y2)), times 2 (times p.y p.z)⟩

def add (p q : Jacobian) : Jacobian :=
  if p.z = 0 then q
  else if q.z = 0 then p
  else
    let pz2 := times p.z p.z
    let qz2 := times q.z q.z
    let u1 := times p.x qz2
    let u2 := times q.x pz2
    let s1 := times p.y (times qz2 q.z)
    let s2 := times q.y (times pz2 p.z)
    if u1 = u2 then
      if s1 = s2 then double p else infinity
    else
      let h := minus u2 u1
      let r := minus s2 s1
      let h2 := times h h
      let h3 := times h2 h
      let v := times u1 h2
      let x := minus (minus (times r r) h3) (2 * v)
      ⟨x, minus (times r (minus v x)) (times s1 h3), times h (times p.z q.z)⟩

/-- The multiple of a point by a scalar below `2 ^ bits`. -/
def multiple : (bits scalar : Nat) → Jacobian → Jacobian
  | 0, _, _ => infinity
  | bits + 1, scalar, p =>
      let rest := multiple bits (scalar / 2) (double p)
      if scalar % 2 = 1 then add p rest else rest

end Jacobian

/-- `a * G + b * p` for the generator `G`. -/
def combine (a b : Nat) (p : Point) : Point :=
  let left := Jacobian.multiple 256 a (.ofPoint generator)
  let right := Jacobian.multiple 256 b (.ofPoint p)
  (Jacobian.add left right).toPoint

/-- The multiple of the generator by a scalar. -/
def ofScalar (scalar : Nat) : Point :=
  (Jacobian.multiple 256 scalar (.ofPoint generator)).toPoint

/-- The point with abscissa `x` and an ordinate of the given parity, if there is one. -/
def lift? (x : Nat) (odd : Bool) : Option Point :=
  if fieldSize ≤ x then none
  else
    let square := (times x (times x x) + 7) % fieldSize
    let root := power fieldSize 256 square ((fieldSize + 1) / 4)
    if times root root ≠ square then none
    else
      let y := if (root % 2 == 1) == odd then root else minus 0 root
      some (.affine x y)

end EvmLedger.Crypto.Curve
