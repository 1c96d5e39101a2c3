/-
# EvmLedger.Ledger.Submission -- transactions against a ledger

A transaction is read, attributed to a linked account, checked and run; only
when its outermost frame succeeds do its effects reach the ledger, together with
the account's new nonce.

Work on a ledger (`Work`) reads and writes it in place, and may fail at any point.
`createAccount`, `submit` and `executeCode` give the ledger back when the work is
done, and the cause when it has failed.

A signed transaction acts for its signer.  An unsigned one acts for the sender
it claims, and only on behalf of the caller who owns that account.
-/

import EvmLedger.ContractAddress
import EvmLedger.Ledger
import EvmLedger.Settings
import EvmLedger.Transaction
import EvmLedger.Vm.Machine

namespace EvmLedger

set_option autoImplicit false

open Vm (Effects Log Params Trap)

namespace Submission

/-- Why a request is turned down. -/
inductive Error where
  | invalidTransaction (cause : Transaction.Error)
  /-- the signer is not linked -/
  | unknownSigner
  /-- the claimed sender is not linked -/
  | unknownSender
  /-- the nonce does not follow the stored one -/
  | invalidNonce (stored got : Nat)
  /-- the caller does not own the claimed sender -/
  | unauthorized
  /-- the name is linked already -/
  | accountExists
  /-- the signature does not lead to a signer -/
  | senderRecovery (cause : Transaction.Error)
  /-- the signature is for another chain -/
  | chainIdMismatch (expected got : Nat)
  /-- the gas limit does not cover the transaction itself -/
  | insufficientGas (required available : Nat)
  | blockGasLimitExceeded (used limit : Nat)
  /-- raw code is not allowed -/
  | rawCodeDisabled
  | reverted (txHash : Hash) (output : Bytes)
  | outOfGas (txHash : Hash)
  | trap (txHash : Hash) (cause : Trap)
  | vm (cause : Vm.Refusal)
  /-- more gas is left than there was; this ends the whole program -/
  | gasGained
  deriving DecidableEq, Repr

def Error.message : Error → String
  | .invalidTransaction cause => "invalid transaction: " ++ cause.message
  | .unknownSigner =>
      "The account identifier associated with this transaction does not exist."
  | .unknownSender =>
      "Could not find sender, did you provide the correct account identifier?"
  | .invalidNonce .. => "Transaction nonce invalid."
  | .unauthorized =>
      "You do not have permission to execute a transaction for the specified sender."
  | .accountExists => "An Ethereum account already exists for this user."
  | .senderRecovery cause => "sender recovery failed: " ++ cause.message
  | .chainIdMismatch expected got =>
      "chain id mismatch: expected " ++ toString expected ++ ", got " ++ toString got
  | .insufficientGas required available =>
      "insufficient gas: required " ++ toString required ++ ", available " ++ toString available
  | .blockGasLimitExceeded used limit =>
      "block gas limit exceeded: " ++ toString used ++ " > " ++ toString limit
  | .rawCodeDisabled => "execute is only available during development."
  | .reverted .. => "MESSAGE_CALL_REVERTED"
  | .outOfGas _ => "MESSAGE_CALL_OUT_OF_GAS"
  | .trap _ cause => cause.message
  | .vm cause => "VM error: " ++ cause.message
  | .gasGained => "more gas is left than there was"

/-- How the signer of a signed transaction is found. -/
abbrev Resolver := Transaction → Except Error Address

def recovery : Resolver := fun tx =>
  tx.recoverSender.mapError .senderRecovery

/-- A transaction as it is handed in. -/
structure Request where
  raw : Bytes
  /-- the account that an unsigned transaction is for -/
  claimed : Option Address := none
  /-- the name of the account that hands it in -/
  caller : Option String := none

/-- What an accepted transaction came to. -/
structure Receipt where
  txHash : Hash
  /-- the account it ran as -/
  sender : Address
  /-- the contract it created -/
  contract : Option Address
  output : Bytes
  /-- gas paid for, after the refund -/
  gasUsed : Nat
  gasRefunded : Nat
  logs : Array Log
  deriving DecidableEq, Repr

/-- Work on a ledger.  What was written before a failure stays written. -/
abbrev Work := EStateM Error Ledger

/-- Goes on with a result, or fails with its cause. -/
def Work.check {α : Type} : Except Error α → Work α
  | .ok a => pure a
  | .error cause => throw cause

def Work.on {α : Type} (work : Work α) (l : Ledger) : Except Error (α × Ledger) :=
  match work.run l with
  | .ok a l => .ok (a, l)
  | .error cause _ => .error cause

/-- Links a name to the identifier derived from it and an address. -/
def link (name : String) (address : Address) : Work Address := do
  match (← get).accountByName? name with
  | some _ => throw .accountExists
  | none =>
      let identifier := ContractAddress.identifier name address
      modify (·.insertAccount ⟨name, identifier, 0, 0⟩)
      return identifier

/-- The linked account with an identifier, or the complaint that it is missing. -/
def linkedAccount (l : Ledger) (identifier : Option Address) (missing : Error) :
    Except Error LinkedAccount :=
  match identifier.bind l.account? with
  | some account => .ok account
  | none => .error missing

/-- A signature that names a chain must name this one. -/
def checkChain (settings : Settings) (tx : Transaction) : Except Error Unit :=
  match tx.signature.chainId with
  | some chain =>
      if chain = settings.chainId then .ok ()
      else .error (.chainIdMismatch settings.chainId chain)
  | none => .ok ()

/-- The linked account that a transaction acts for. -/
def actingAccount (settings : Settings) (resolve : Resolver) (l : Ledger) (tx : Transaction)
    (claimed : Option Address) : Except Error LinkedAccount :=
  if tx.isSigned then do
    checkChain settings tx
    let signer ← resolve tx
    linkedAccount l (some signer) .unknownSigner
  else linkedAccount l claimed .unknownSender

/-- The linked account that a transaction acts for, once its nonce and the right of the caller
have been checked. -/
def authenticate (settings : Settings) (resolve : Resolver) (l : Ledger) (tx : Transaction)
    (nonce : Nat) (request : Request) : Except Error LinkedAccount := do
  let account ← actingAccount settings resolve l tx request.claimed
  if Quantity.add? account.nonce 1 ≠ some nonce then
    throw (.invalidNonce account.nonce nonce)
  if !tx.isSigned ∧ request.caller ≠ some account.name then throw .unauthorized
  return account

/-- The gas limit and what of it is left for the frame. -/
def gasFor (settings : Settings) (tx : Transaction) : Except Error (Nat × Nat) := do
  let limit ← tx.gasLimit64.mapError .invalidTransaction
  if settings.blockGasLimit < limit then
    throw (.blockGasLimitExceeded limit settings.blockGasLimit)
  let intrinsic := settings.schedule.intrinsicGas tx.data tx.isCreate
  if limit < intrinsic then throw (.insufficientGas intrinsic limit)
  return (limit, limit - intrinsic)

/-- The outermost frame of a transaction and the contract it creates.  `code` takes the place of
the code that would run otherwise. -/
def frameFor (l : Ledger) (tx : Transaction) (sender : Address) (gas : Nat)
    (code : Option Bytes) : Params × Option Address :=
  match tx.action with
  | .call recipient =>
      ({ address := recipient
         sender := sender
         origin := sender
         gas := gas
         gasPrice := tx.gasPrice
         value := tx.value
         code := code.getD (l.contract recipient).code
         data := tx.data }, none)
  | .create =>
      let address := ContractAddress.legacy sender tx.nonce
      ({ address := address
         sender := sender
         origin := sender
         gas := gas
         gasPrice := tx.gasPrice
         value := tx.value
         code := code.getD tx.data
         kind := .create .create }, some address)

/-- What a run returned, or why the transaction fails. -/
def outputOf (txHash : Hash) : Vm.Result → Except Error Bytes
  | .stopped _ => .ok []
  | .done data _ => .ok data
  | .reverted data _ => .error (.reverted txHash data)
  | .outOfGas => .error (.outOfGas txHash)
  | .trap cause => .error (.trap txHash cause)

/-- The gas that was spent of a limit. -/
def spentOf (limit left : Nat) : Except Error Nat :=
  match Quantity.sub? limit left with
  | some spent => .ok spent
  | none => .error .gasGained

/-- The machine's view of the ledger and of the block. -/
def contextFor (settings : Settings) (l : Ledger) : Vm.Context where
  schedule := settings.schedule
  env := settings.env
  maxDepth := settings.maxCallDepth
  host := l.host

/-- Checks and runs a transaction, and persists what it did.  `code` takes the place of the code
that would run otherwise. -/
def process (settings : Settings) (resolve : Resolver) (request : Request) (code : Option Bytes) :
    Work Receipt := do
  let tx ← .check ((Transaction.parse request.raw).mapError .invalidTransaction)
  let nonce ← .check (tx.nonce64.mapError .invalidTransaction)
  let account ← .check (authenticate settings resolve (← get) tx nonce request)
  let sender := account.identifier
  let (limit, gas) ← .check (gasFor settings tx)
  let (params, contract) := frameFor (← get) tx sender gas code
  let outcome ← .check ((Vm.execute (contextFor settings (← get)) params).mapError .vm)
  let output ← .check (outputOf tx.hash outcome.result)
  let spent ← .check (spentOf limit outcome.result.gasLeft)
  let refunded := min outcome.effects.refund (spent / 2)
  modify (·.apply outcome.effects)
  modify (·.setAccountNonce sender nonce)
  return {
    txHash := tx.hash
    sender := sender
    contract := contract
    output := output
    gasUsed := spent - refunded
    gasRefunded := refunded
    logs := outcome.effects.logs }

/-- Handles a transaction with other code than the recipient's, where that is allowed. -/
def processCode (settings : Settings) (resolve : Resolver) (code : Bytes) (request : Request) :
    Work Receipt :=
  if settings.allowRawCode then process settings resolve request (some code)
  else throw .rawCodeDisabled

def createAccount (l : Ledger) (name : String) (address : Address) :
    Except Error (Address × Ledger) :=
  (link name address).on l

def submit (settings : Settings) (resolve : Resolver) (l : Ledger) (request : Request) :
    Except Error (Receipt × Ledger) :=
  (process settings resolve request none).on l

def executeCode (settings : Settings) (resolve : Resolver) (l : Ledger) (code : Bytes)
    (request : Request) : Except Error (Receipt × Ledger) :=
  (processCode settings resolve code request).on l

end Submission

end EvmLedger
