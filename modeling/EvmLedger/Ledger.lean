/-
# EvmLedger.Ledger -- accounts, contracts and storage

A ledger links account names to identifiers, one of each to the other.  A linked
account has a nonce and a balance of its own; everything else that has a balance
or code is a contract.  An address that is the identifier of a linked account
has that account's balance, whatever the contract table says.

Slots that hold zero are not stored.
-/

import EvmLedger.Vm.Backend

namespace EvmLedger

set_option autoImplicit false

open Vm (Account Effects Host Log)

/-- A named account with its identifier. -/
structure LinkedAccount where
  name : String
  identifier : Address
  /-- the nonce of the last accepted transaction -/
  nonce : Nat
  balance : Word
  deriving DecidableEq, Repr

/-- The tables of a ledger. -/
structure Ledger where
  /-- linked accounts by name -/
  accounts : Std.ExtTreeMap String LinkedAccount := ∅
  /-- names of linked accounts by identifier -/
  identifiers : Std.ExtTreeMap Address String := ∅
  contracts : Std.ExtTreeMap Address Account := ∅
  /-- slot values by composite key, zero ones left out -/
  storage : Std.ExtTreeMap Hash Word := ∅
  logs : Array Log := #[]
  suicides : Array Address := #[]

namespace Ledger

/-! ## Reading -/

def account? (l : Ledger) (identifier : Address) : Option LinkedAccount := do
  let name ← l.identifiers[identifier]?
  l.accounts[name]?

def accountByName? (l : Ledger) (name : String) : Option LinkedAccount :=
  l.accounts[name]?

/-- The contract at an address, or an empty one. -/
def contract (l : Ledger) (address : Address) : Account :=
  l.contracts[address]?.getD {}

/-- The balance of a linked account or a contract. -/
def balance (l : Ledger) (address : Address) : Word :=
  match l.account? address with
  | some account => account.balance
  | none => (l.contract address).balance

/-- The value under a composite key. -/
def slotAt (l : Ledger) (key : Hash) : Word :=
  l.storage[key]?.getD 0

def slot (l : Ledger) (contract : Address) (key : Word) : Word :=
  l.slotAt (Crypto.storageKey contract key)

/-- The ledger as the machine sees it. -/
def host (l : Ledger) : Host where
  code address := (l.contract address).code
  balance address := l.balance address
  storageAt key := match l.storage[key]? with
    | some value => value.toBytes
    | none => []
  nonce address := (l.contract address).nonce

/-! ## Writing -/

/-- Links an account, under its name and its identifier. -/
def insertAccount (l : Ledger) (account : LinkedAccount) : Ledger :=
  { l with
    identifiers := l.identifiers.insert account.identifier account.name
    accounts := l.accounts.insert account.name account }

/-- Changes the linked account with an identifier, if there is one. -/
def modifyAccount (l : Ledger) (identifier : Address) (f : LinkedAccount → LinkedAccount) :
    Ledger :=
  match l.identifiers[identifier]? with
  | none => l
  | some name =>
      match l.accounts[name]? with
      | none => l
      | some account => { l with accounts := l.accounts.insert name (f account) }

/-- Changes the contract at an address, which need not exist. -/
def modifyContract (l : Ledger) (address : Address) (f : Account → Account) : Ledger :=
  { l with contracts := l.contracts.insert address (f (l.contract address)) }

/-- Records the nonce of the last accepted transaction. -/
def setAccountNonce (l : Ledger) (identifier : Address) (nonce : Nat) : Ledger :=
  l.modifyAccount identifier ({ · with nonce := nonce })

def setBalance (l : Ledger) (address : Address) (balance : Word) : Ledger :=
  match l.account? address with
  | some _ => l.modifyAccount address ({ · with balance := balance })
  | none => l.modifyContract address ({ · with balance := balance })

def setCode (l : Ledger) (address : Address) (code : Bytes) : Ledger :=
  l.modifyContract address ({ · with code := code })

def setNonce (l : Ledger) (address : Address) (nonce : Nat) : Ledger :=
  l.modifyContract address ({ · with nonce := nonce })

def setSlot (l : Ledger) (key : Hash) (value : Word) : Ledger :=
  { l with storage := if value = 0 then l.storage.erase key else l.storage.insert key value }

def log (l : Ledger) (entry : Log) : Ledger :=
  { l with logs := l.logs.push entry }

/-- Receives a self-destruction: the contract goes, a linked account stays. -/
def suicide (l : Ledger) (address : Address) : Ledger :=
  { l with contracts := l.contracts.erase address, suicides := l.suicides.push address }

/-- Persists the effects of a run. -/
def apply (l : Ledger) (e : Effects) : Ledger :=
  let l := e.storage.foldl (fun l slot value =>
    l.setSlot (Crypto.storageKey slot.contract slot.key) value) l
  let l := e.balances.foldl setBalance l
  let l := e.codes.foldl setCode l
  let l := e.nonces.foldl setNonce l
  let l := e.logs.foldl log l
  e.suicides.foldl suicide l

end Ledger

end EvmLedger
