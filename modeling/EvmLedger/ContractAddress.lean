/-
# EvmLedger.ContractAddress -- where new accounts live

A new contract is placed by one of three schemes: at the sender itself, at the
digest of sender and nonce, or at the digest of sender, salt and initialisation
code.  The same construction links a ledger account name to an address.  The
byte strings that are hashed are definitions of their own, so that statements
can be made about them.
-/

import EvmLedger.Crypto.Keccak
import EvmLedger.Rlp.Encode

namespace EvmLedger

set_option autoImplicit false

/-- How a contract creation picks its address. -/
inductive AddressScheme where
  /-- the sender's own address -/
  | sender
  /-- from the sender and its nonce -/
  | legacy
  /-- from the sender, a salt and the initialisation code -/
  | salted
  deriving DecidableEq, Repr

namespace ContractAddress

open Crypto (keccak)

/-- The low twenty bytes of the digest of a byte string. -/
def ofPreimage (preimage : Bytes) : Address :=
  Address.ofLowBytes (keccak preimage).toBytes

def legacyPreimage (sender : Address) (nonce : Word) : Bytes :=
  Rlp.encodeList [.ofAddress sender, .ofWord nonce]

def saltedPreimage (sender : Address) (salt : Word) (codeHash : Hash) : Bytes :=
  0xff :: (sender.toBytes ++ salt.toBytes ++ codeHash.toBytes)

/-- What is hashed to link an account name to an address. -/
def identifierPreimage (name : String) (address : Address) : Bytes :=
  Rlp.encodeList [.string name.toUTF8.toList, .ofAddress address]

def legacy (sender : Address) (nonce : Word) : Address :=
  ofPreimage (legacyPreimage sender nonce)

def salted (sender : Address) (salt : Word) (initCode : Bytes) : Address :=
  ofPreimage (saltedPreimage sender salt (keccak initCode))

/-- The address of a new contract; `nonceOrSalt` is what the scheme needs of the two. -/
def ofScheme (scheme : AddressScheme) (sender : Address) (nonceOrSalt : Word)
    (initCode : Bytes) : Address :=
  match scheme with
  | .sender => sender
  | .legacy => legacy sender nonceOrSalt
  | .salted => salted sender nonceOrSalt initCode

def identifier (name : String) (address : Address) : Address :=
  ofPreimage (identifierPreimage name address)

end ContractAddress

end EvmLedger
