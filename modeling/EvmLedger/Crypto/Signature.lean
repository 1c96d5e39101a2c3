/-
# EvmLedger.Crypto.Signature -- recoverable signatures

Signatures over secp256k1 that carry enough to find the signer again.  Signing
is deterministic: the nonce comes from a keyed-digest generator seeded with the
key and the message hash.  The second component is always the lower of the two
possible values, and the recovery identifier says which point the first
component came from: its low bit is the parity of the ordinate, its second bit
tells that the abscissa was at least the group order.

Recovery refuses signatures whose second component is in the upper half, since
such a signature never verifies.
-/

import EvmLedger.Crypto.Curve
import EvmLedger.Crypto.Keccak
import EvmLedger.Crypto.Sha256

namespace EvmLedger.Crypto

set_option autoImplicit false

/-- A signature with its recovery identifier. -/
structure Signature where
  r : Hash
  s : Hash
  recoveryId : Nat
  deriving DecidableEq, Repr

namespace Signature

inductive Error where
  /-- no signature exists for the nonce -/
  | signingFailed
  /-- a component is zero or not below the group order -/
  | invalidSignature
  /-- the recovery identifier is above three -/
  | invalidRecoveryId (id : Nat)
  /-- no public key fits the signature -/
  | recoveryFailed
  deriving DecidableEq, Repr

def Error.message : Error → String
  | .signingFailed => "signing failed: signature error"
  | .invalidSignature => "invalid signature: signature error"
  | .invalidRecoveryId id => "invalid recovery id: " ++ toString id
  | .recoveryFailed => "public key recovery failed: signature error"

end Signature

/-! ## Keys -/

/-- A private key: a scalar that is neither zero nor as large as the group order. -/
structure PrivateKey where
  scalar : Nat
  pos : 0 < scalar
  lt_order : scalar < Curve.order

/-- A public key: the affine coordinates of a point. -/
structure PublicKey where
  x : Nat
  y : Nat
  deriving DecidableEq, Repr

namespace PrivateKey

/-- The key of 24 to 32 bytes, shorter strings being widened by leading zeros. -/
def ofBytes? (bytes : Bytes) : Option PrivateKey :=
  let scalar := bytes.toNat
  if 24 ≤ bytes.length ∧ bytes.length ≤ 32 then
    if h : 0 < scalar ∧ scalar < Curve.order then some ⟨scalar, h.1, h.2⟩ else none
  else none

def publicKey (key : PrivateKey) : PublicKey :=
  match Curve.ofScalar key.scalar with
  | .affine x y => ⟨x, y⟩
  | .infinity => ⟨0, 0⟩

end PrivateKey

namespace PublicKey

def toBytes (key : PublicKey) : Bytes :=
  Bytes.ofNat 32 key.x ++ Bytes.ofNat 32 key.y

/-- The uncompressed form: a byte four and the coordinates. -/
def toUncompressed (key : PublicKey) : Bytes :=
  0x04 :: key.toBytes

/-- The account address: the low twenty bytes of the digest of the coordinates. -/
def toAddress (key : PublicKey) : Address :=
  Address.ofLowBytes (keccak key.toBytes).toBytes

end PublicKey

/-! ## Nonces -/

namespace Nonce

structure State where
  key : Bytes
  value : Bytes

/-- Mixes more input into the generator. -/
def State.update (g : State) (input : Bytes) : State :=
  let key := hmac g.key (g.value ++ input)
  ⟨key, hmac key g.value⟩

/-- The generator for a private key and a message hash. -/
def seed (scalar : Nat) (hash : Hash) : State :=
  let input := Bytes.ofNat 32 scalar ++ hash.toBytes
  let start : State := ⟨List.replicate 32 0, List.replicate 32 1⟩
  (start.update (0x00 :: input)).update (0x01 :: input)

/-- The first output that is a scalar, trying `tries` times at most. -/
def draw : Nat → State → Option Nat
  | 0, _ => none
  | tries + 1, g =>
      let value := hmac g.key g.value
      let k := Bytes.toNat value
      if 0 < k ∧ k < Curve.order then some k
      else draw tries (State.update ⟨g.key, value⟩ [0x00])

end Nonce

/-! ## Signing and recovery -/

/-- Whether a scalar lies in the upper half of the range. -/
def isHigh (scalar : Nat) : Bool := Curve.order / 2 < scalar

def sign (hash : Hash) (key : PrivateKey) : Except Signature.Error Signature :=
  let z := hash.bits.toNat % Curve.order
  match Nonce.draw 256 (Nonce.seed key.scalar hash) with
  | none => .error .signingFailed
  | some k =>
      match Curve.ofScalar k with
      | .infinity => .error .signingFailed
      | .affine x y =>
          let r := x % Curve.order
          let s := Curve.inverse Curve.order k * (z + r * key.scalar) % Curve.order
          if r = 0 ∨ s = 0 then .error .signingFailed
          else
            let low := if isHigh s then Curve.order - s else s
            let odd := (y % 2 == 1) != isHigh s
            let id := (if odd then 1 else 0) + (if Curve.order ≤ x then 2 else 0)
            .ok ⟨⟨Word.ofNat r⟩, ⟨Word.ofNat low⟩, id⟩

/-- Whether a signature component is a non-zero scalar. -/
def isScalar (n : Nat) : Bool := 0 < n && n < Curve.order

/-- The public key whose signature over the message hash this is. -/
def recoverKey (hash : Hash) (signature : Signature) : Except Signature.Error PublicKey :=
  let r := signature.r.bits.toNat
  let s := signature.s.bits.toNat
  if ¬ (isScalar r ∧ isScalar s) then .error .invalidSignature
  else if 3 < signature.recoveryId then .error (.invalidRecoveryId signature.recoveryId)
  else
    let x := if 2 ≤ signature.recoveryId then r + Curve.order else r
    match Curve.lift? x (signature.recoveryId % 2 == 1) with
    | none => .error .recoveryFailed
    | some point =>
        let z := hash.bits.toNat % Curve.order
        let u := Curve.inverse Curve.order r
        let a := (Curve.order - z) * u % Curve.order
        let b := s * u % Curve.order
        match Curve.combine a b point with
        | .infinity => .error .recoveryFailed
        | .affine x y => if isHigh s then .error .recoveryFailed else .ok ⟨x, y⟩

/-- The account whose signature over the message hash this is. -/
def recoverSigner (hash : Hash) (signature : Signature) : Except Signature.Error Address :=
  (recoverKey hash signature).map PublicKey.toAddress

end EvmLedger.Crypto
