/-
# EvmLedger.Vm.Overlay -- scoped writes over a host

The machine only reads from its host; what it writes is kept in scopes, one for
every open frame.  A read looks at the innermost scope first, then at every
enclosing one, and asks the host last.  Closing a scope either folds it into the
enclosing one (`commit`) or forgets it (`discard`).

There is always a scope: `current` is the innermost one and `outer` are the
others, nearest first, so the root scope is last.
-/

import EvmLedger.Crypto.Keccak
import EvmLedger.Vm.Effects
import EvmLedger.Vm.Trap

namespace EvmLedger.Vm

set_option autoImplicit false

/-- What the machine asks of the world outside. -/
structure Host where
  /-- the code of an account, empty if it has none -/
  code : Address → Bytes
  /-- the balance of an account -/
  balance : Address → Word
  /-- the bytes stored under a composite key, empty if unset -/
  storageAt : Hash → Bytes
  /-- the nonce of a contract account -/
  nonce : Address → Nat

def Host.slot (host : Host) (contract : Address) (key : Word) : Word :=
  Word.ofBytesTruncating (host.storageAt (Crypto.storageKey contract key))

/-- The scopes of the open frames. -/
structure Overlay where
  /-- the innermost scope -/
  current : Effects := .empty
  /-- the enclosing scopes, nearest first -/
  outer : List Effects := []
  deriving DecidableEq

namespace Overlay

/-! ## Scopes -/

/-- The number of scopes inside the root scope. -/
def depth (o : Overlay) : Nat := o.outer.length

/-- All scopes, innermost first. -/
def scopes (o : Overlay) : List Effects := o.current :: o.outer

def enter (o : Overlay) : Overlay := ⟨.empty, o.scopes⟩

/-- Closes the innermost scope and keeps its writes; the root scope stays open. -/
def commit (o : Overlay) : Overlay :=
  match o.outer with
  | [] => o
  | parent :: rest => ⟨parent.merge o.current, rest⟩

/-- Closes the innermost scope and forgets its writes; the root scope is emptied instead. -/
def discard (o : Overlay) : Overlay :=
  match o.outer with
  | [] => ⟨.empty, []⟩
  | parent :: rest => ⟨parent, rest⟩

/-- The writes of all scopes together. -/
def flatten (o : Overlay) : Effects :=
  o.outer.foldl (fun inner parent => parent.merge inner) o.current

def update (o : Overlay) (f : Effects → Effects) : Overlay :=
  { o with current := f o.current }

/-! ## Reading -/

/-- What the innermost scope that knows the answer says. -/
def find? {α : Type} (o : Overlay) (ask : Effects → Option α) : Option α :=
  o.scopes.findSome? ask

def storage (host : Host) (o : Overlay) (contract : Address) (key : Word) : Word :=
  (o.find? fun e => e.storage[Slot.mk contract key]?).getD (host.slot contract key)

def balance (host : Host) (o : Overlay) (address : Address) : Word :=
  (o.find? fun e => e.balances[address]?).getD (host.balance address)

def code? (o : Overlay) (address : Address) : Option Bytes :=
  o.find? fun e => e.codes[address]?

def code (host : Host) (o : Overlay) (address : Address) : Bytes :=
  (o.code? address).getD (host.code address)

def nonce (host : Host) (o : Overlay) (address : Address) : Nat :=
  (o.find? fun e => e.nonces[address]?).getD (host.nonce address)

/-- Whether an account destroyed itself in an open scope. -/
def hasSuicided (o : Overlay) (address : Address) : Bool :=
  o.scopes.any fun e => e.suicides.contains address

/-! ## Writing -/

def setStorage (o : Overlay) (contract : Address) (key value : Word) : Overlay :=
  o.update fun e => { e with storage := e.storage.insert ⟨contract, key⟩ value }

def setBalance (o : Overlay) (address : Address) (value : Word) : Overlay :=
  o.update fun e => { e with balances := e.balances.insert address value }

def setCode (o : Overlay) (address : Address) (code : Bytes) : Overlay :=
  o.update fun e => { e with codes := e.codes.insert address code }

def setNonce (o : Overlay) (address : Address) (nonce : Nat) : Overlay :=
  o.update fun e => { e with nonces := e.nonces.insert address nonce }

/-- Raises a nonce by one, unless it is the greatest there is. -/
def incrementNonce (host : Host) (o : Overlay) (address : Address) : Overlay :=
  o.setNonce address (Quantity.addSat (o.nonce host address) 1)

def suicide (o : Overlay) (address : Address) : Overlay :=
  o.update fun e => { e with suicides := e.suicides.insert address }

def addLog (o : Overlay) (entry : Log) : Overlay :=
  o.update fun e => { e with logs := e.logs.push entry }

def addRefund (o : Overlay) (amount : Nat) : Overlay :=
  o.update fun e => { e with refund := Quantity.addSat e.refund amount }

/-- Adds to the gas to be given back where there is a reason to. -/
def refundIf (o : Overlay) (reason : Prop) [Decidable reason] (amount : Nat) : Overlay :=
  if reason then o.addRefund amount else o

/-- What is given back for a self-destruction: only the first one of an account counts. -/
def refundSuicide (o : Overlay) (address : Address) (amount : Nat) : Overlay :=
  o.refundIf (o.hasSuicided address = false) amount

/-- Moves value between accounts.  A payer that has too little, or a credit that does not fit a
word, is refused and nothing is written.  Nothing is written either when there is nothing to
move. -/
def transfer (host : Host) (o : Overlay) (payer payee : Address) (value : Word) :
    Except Trap Overlay :=
  let funds := o.balance host payer
  if funds < value then .error .insufficientFunds
  else if payer = payee ∨ value = 0 then .ok o
  else
    let credit := (o.balance host payee).toNat + value.toNat
    if Word.maximum.toNat < credit then .error .overflow
    else .ok ((o.setBalance payer (funds - value)).setBalance payee (Word.ofNat credit))

/-- Hands all funds of an account to another one; handed to the account itself they are gone. -/
def handOver (host : Host) (o : Overlay) (address beneficiary : Address) : Except Trap Overlay :=
  let funds := o.balance host address
  if beneficiary = address then .ok (if funds = 0 then o else o.setBalance address 0)
  else o.transfer host address beneficiary funds

end Overlay

end EvmLedger.Vm
