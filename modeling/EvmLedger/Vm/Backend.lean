/-
# EvmLedger.Vm.Backend -- a host kept in maps

Accounts by address and storage by composite key.  The effects of a run are
persisted by `apply`: slots are written as 32 bytes under their composite keys,
and an account that destroyed itself is removed after everything else was
written.
-/

import EvmLedger.Vm.Overlay

namespace EvmLedger.Vm

set_option autoImplicit false

/-- An account of a backend. -/
structure Account where
  balance : Word := 0
  code : Bytes := []
  nonce : Nat := 0
  deriving DecidableEq, Repr

/-- Host state in ordered maps. -/
structure Backend where
  accounts : Std.ExtTreeMap Address Account := ∅
  /-- stored bytes by composite key -/
  storage : Std.ExtTreeMap Hash Bytes := ∅
  /-- the log entries received -/
  logs : Array Log := #[]
  /-- the self-destructions received, in order -/
  suicides : Array Address := #[]

namespace Backend

/-- The account at an address, or an empty one. -/
def account (b : Backend) (address : Address) : Account :=
  b.accounts[address]?.getD {}

/-- Changes the account at an address, which need not exist. -/
def modify (b : Backend) (address : Address) (f : Account → Account) : Backend :=
  { b with accounts := b.accounts.insert address (f (b.account address)) }

def setStorage (b : Backend) (contract : Address) (key value : Word) : Backend :=
  { b with storage := b.storage.insert (Crypto.storageKey contract key) value.toBytes }

def log (b : Backend) (entry : Log) : Backend :=
  { b with logs := b.logs.push entry }

def suicide (b : Backend) (address : Address) : Backend :=
  { b with accounts := b.accounts.erase address, suicides := b.suicides.push address }

def host (b : Backend) : Host where
  code address := (b.account address).code
  balance address := (b.account address).balance
  storageAt key := b.storage[key]?.getD []
  nonce address := (b.account address).nonce

def apply (b : Backend) (e : Effects) : Backend :=
  let b := e.storage.foldl (fun b slot value => b.setStorage slot.contract slot.key value) b
  let b := e.balances.foldl (fun b a balance => b.modify a ({ · with balance := balance })) b
  let b := e.codes.foldl (fun b a code => b.modify a ({ · with code := code })) b
  let b := e.nonces.foldl (fun b a nonce => b.modify a ({ · with nonce := nonce })) b
  let b := e.logs.foldl log b
  e.suicides.foldl suicide b

end Backend

end EvmLedger.Vm
