/-
# EvmLedger.Transaction -- signed transactions and their wire form

On the wire a transaction is a list of nine byte strings: nonce, gas price, gas
limit, recipient, value, data and the three parts of the signature.  An empty
recipient means that the data is initialisation code.

The signature covers the first six fields (`payload`); when the chain is named,
the chain identifier and two empty strings are covered too.  The recovery value
`v` then is `35 + 2 * chain + parity` instead of `27 + parity`.
-/

import EvmLedger.Crypto.Signature
import EvmLedger.Rlp.Decode

namespace EvmLedger

set_option autoImplicit false

open Crypto (keccak Signature PrivateKey)

namespace Transaction

/-- What a transaction does. -/
inductive Action where
  /-- run the data as initialisation code -/
  | create
  /-- call an account -/
  | call (recipient : Address)
  deriving DecidableEq, Repr

/-- The signature as it stands on the wire. -/
structure WireSignature where
  v : Word := 0
  r : Bytes := []
  s : Bytes := []
  deriving DecidableEq, Repr

inductive SignatureFault where
  /-- `v` has no meaning -/
  | unsupported (v : Nat)
  /-- a component is longer than 32 bytes -/
  | oversized (component : String) (length : Nat)
  /-- a component is missing -/
  | unsigned
  deriving DecidableEq, Repr

def SignatureFault.message : SignatureFault → String
  | .unsupported v => "unsupported v value " ++ toString v
  | .oversized component length => component ++ " is " ++ toString length ++ " bytes"
  | .unsigned => "transaction is unsigned"

inductive Error where
  | rlp (cause : Rlp.Error)
  | notAList
  | invalidFieldCount (count : Nat)
  | invalidRecipient (length : Nat)
  | fieldOverflow (field : String)
  | invalidSignature (fault : SignatureFault)
  | crypto (cause : Signature.Error)
  /-- the recovery value is no quantity; this ends the whole program -/
  | recoveryOverflow
  deriving DecidableEq, Repr

def Error.message : Error → String
  | .rlp cause => "rlp error: " ++ cause.message
  | .notAList => "transaction must be an rlp list"
  | .invalidFieldCount count => "transaction has " ++ toString count ++ " fields, expected 9"
  | .invalidRecipient length => "invalid recipient length: " ++ toString length ++ " bytes"
  | .fieldOverflow field => "field `" ++ field ++ "` overflows"
  | .invalidSignature fault => "invalid signature: " ++ fault.message
  | .crypto cause => "crypto error: " ++ cause.message
  | .recoveryOverflow => "the recovery value is out of range"

namespace WireSignature

def isPresent (wire : WireSignature) : Bool :=
  !wire.r.isEmpty && !wire.s.isEmpty

/-- The chain identifier in `v`, if it holds one. -/
def chainId (wire : WireSignature) : Option Nat := do
  let v ← Word.narrow? wire.v
  if 35 ≤ v then some ((v - 35) / 2) else none

/-- The parity bit in `v`. -/
def recoveryId (wire : WireSignature) : Except Error Nat :=
  match Word.narrow? wire.v with
  | none => .error (.fieldOverflow "v")
  | some v =>
      if v = 0 ∨ v = 1 then .ok v
      else if v = 27 ∨ v = 28 then .ok (v - 27)
      else if 35 ≤ v then .ok ((v - 35) % 2)
      else .error (.invalidSignature (.unsupported v))

/-- A component widened to 32 bytes. -/
def component (name : String) (bytes : Bytes) : Except Error Hash :=
  if 32 < bytes.length then .error (.invalidSignature (.oversized name bytes.length))
  else .ok ⟨Word.ofBytes bytes⟩

/-- The signature in the form that recovery takes. -/
def toSignature (wire : WireSignature) : Except Error Signature := do
  let r ← component "r" wire.r
  let s ← component "s" wire.s
  let id ← wire.recoveryId
  .ok ⟨r, s, id⟩

end WireSignature

end Transaction

/-- A transaction. -/
structure Transaction where
  action : Transaction.Action
  nonce : Word
  gasPrice : Word
  gasLimit : Word
  value : Word
  data : Bytes
  signature : Transaction.WireSignature := {}
  deriving DecidableEq, Repr

namespace Transaction

/-! ## Views -/

/-- The called account, or nothing for a creation. -/
def recipient (tx : Transaction) : Option Address :=
  match tx.action with
  | .create => none
  | .call recipient => some recipient

def isCreate (tx : Transaction) : Bool := tx.action == .create

def isSigned (tx : Transaction) : Bool := tx.signature.isPresent

def gasLimit64 (tx : Transaction) : Except Error Nat :=
  match Word.narrow? tx.gasLimit with
  | some n => .ok n
  | none => .error (.fieldOverflow "gas_limit")

def nonce64 (tx : Transaction) : Except Error Nat :=
  match Word.narrow? tx.nonce with
  | some n => .ok n
  | none => .error (.fieldOverflow "nonce")

/-! ## The wire form -/

/-- The six fields that a signature always covers. -/
def payload (tx : Transaction) : List Rlp.Item :=
  let recipient : Rlp.Item :=
    match tx.action with
    | .create => .empty
    | .call recipient => .ofAddress recipient
  [.ofWord tx.nonce, .ofWord tx.gasPrice, .ofWord tx.gasLimit, recipient, .ofWord tx.value,
    .string tx.data]

def encode (tx : Transaction) : Bytes :=
  Rlp.encodeList (tx.payload ++ [.ofWord tx.signature.v, .string tx.signature.r, .string tx.signature.s])

/-- The action that a recipient field stands for. -/
def readAction (field : Bytes) : Except Error Action :=
  if field.length = 0 then .ok .create
  else if field.length = 20 then .ok (.call (.ofLowBytes field))
  else .error (.invalidRecipient field.length)

/-- The transaction with the given fields. -/
def ofItems (items : List Rlp.Item) : Except Error Transaction :=
  match items with
  | [nonce, gasPrice, gasLimit, recipient, value, data, v, r, s] => do
      let action ← readAction (← recipient.bytes?.mapError .rlp)
      let nonce ← nonce.word?.mapError .rlp
      let gasPrice ← gasPrice.word?.mapError .rlp
      let gasLimit ← gasLimit.word?.mapError .rlp
      let value ← value.word?.mapError .rlp
      let data ← data.bytes?.mapError .rlp
      let v ← v.word?.mapError .rlp
      let r ← r.bytes?.mapError .rlp
      let s ← s.bytes?.mapError .rlp
      .ok ⟨action, nonce, gasPrice, gasLimit, value, data, ⟨v, r, s⟩⟩
  | items => .error (.invalidFieldCount items.length)

def parse (raw : Bytes) : Except Error Transaction :=
  match Rlp.decode raw with
  | .error cause => .error (.rlp cause)
  | .ok (.string _) => .error .notAList
  | .ok (.list items) => ofItems items

def hash (tx : Transaction) : Hash := keccak tx.encode

/-! ## Signatures -/

/-- The byte string that is signed, with the chain named or not. -/
def signingPreimage (tx : Transaction) (chain : Option Nat) : Bytes :=
  match chain with
  | none => Rlp.encodeList tx.payload
  | some id => Rlp.encodeList (tx.payload ++ [.ofNat id, .empty, .empty])

/-- The hash that is signed, with the chain named or not. -/
def signingHashFor (tx : Transaction) (chain : Option Nat) : Hash :=
  keccak (tx.signingPreimage chain)

/-- The hash that the transaction's signature is for. -/
def signingHash (tx : Transaction) : Hash :=
  tx.signingHashFor tx.signature.chainId

/-- The least recovery value for a chain, if it is a quantity. -/
def recoveryBase? : Option Nat → Option Nat
  | none => some 27
  | some id => do Quantity.add? 35 (← Quantity.mul? 2 id)

/-- The recovery value for a chain and a parity, if it is a quantity. -/
def recoveryValue? (chain : Option Nat) (parity : Nat) : Option Word := do
  let value ← Quantity.add? (← recoveryBase? chain) parity
  return Word.ofNat value

/-- A signature for a chain as it stands on the wire; the names of the greatest chains leave no room
for the parity. -/
def WireSignature.ofSignature? (chain : Option Nat) (signature : Signature) :
    Option WireSignature := do
  return ⟨← recoveryValue? chain signature.recoveryId, signature.r.toBytes.dropZeros,
    signature.s.toBytes.dropZeros⟩

/-- The transaction with a signature by the key in place of any other. -/
def sign (tx : Transaction) (key : PrivateKey) (chain : Option Nat) : Except Error Transaction := do
  let signature ← (Crypto.sign (tx.signingHashFor chain) key).mapError .crypto
  match WireSignature.ofSignature? chain signature with
  | some wire => .ok { tx with signature := wire }
  | none => .error .recoveryOverflow

def recoverSender (tx : Transaction) : Except Error Address :=
  if !tx.isSigned then .error (.invalidSignature .unsigned)
  else do
    let signature ← tx.signature.toSignature
    (Crypto.recoverSigner tx.signingHash signature).mapError .crypto

end Transaction

end EvmLedger
