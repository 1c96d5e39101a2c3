/-
# EvmLedger.Fixture -- test cases for code

A case names the frame to run, the block and the accounts it sees, and what is
to be expected of it: how it ends, the gas left, what it returns, what some
slots hold and how many log entries there are.  What a case does not mention is
not checked.

Cases are written as JSON records.  Byte strings are digits after an optional
`0x`; words may have an odd number of them; amounts are numbers or texts of
digits.
-/

import EvmLedger.Json.Record
import EvmLedger.Vm.Backend
import EvmLedger.Vm.Frame

namespace EvmLedger

set_option autoImplicit false

open Vm (Account Backend Env Params)

/-- What is expected of a run. -/
structure Fixture.Expectation where
  status : String := "success"
  gasLeft : Option Nat := none
  /-- slots by contract -/
  storage : Std.ExtTreeMap Address (Std.ExtTreeMap Word Word) := ∅
  /-- the number of log entries -/
  logs : Option Nat := none
  output : Option Bytes := none

/-- A test case. -/
structure Fixture where
  env : Env
  params : Params
  /-- the accounts before the run -/
  pre : Backend
  expect : Fixture.Expectation

namespace Fixture

/-! ## Values -/

def readBytes (value : Json) : Option Bytes := do
  (Hex.decodeExact (← value.text?)).toOption

/-- Reads a word from at most 32 bytes; the first of an odd number of digits stands for a byte. -/
def wordOfText? (text : String) : Option Word := do
  let digits := Hex.utf8 (Hex.strip0x text.toList)
  let digits := if digits.length % 2 = 1 then 48 :: digits else digits
  (Word.ofBytes? (← (Hex.decodeDigits digits).toOption)).toOption

def readWord (value : Json) : Option Word := do
  wordOfText? (← value.text?)

def numberOfDigits? (digits : Bytes) : Option Nat :=
  digits.foldlM (fun n c => do return n * 16 + (← Hex.digitValue? c).toNat) 0

/-- Reads an amount from a text: digits after an optional `0x` and an optional sign. -/
def amountOfText? (text : String) : Option Nat := do
  let digits := match Hex.utf8 (Hex.strip0x text.toList) with
    | 43 :: rest => rest
    | digits => digits
  if digits.isEmpty then none
  else
    let n ← numberOfDigits? digits
    if n < Quantity.bound then some n else none

def readAmount : Json → Option Nat
  | .natural n => some n
  | .string text => amountOfText? text
  | _ => none

def addressOfText? (text : String) : Option Address :=
  (Address.ofHex? text).toOption

def readAddress (value : Json) : Option Address := do
  addressOfText? (← value.text?)

/-- Reads an object as a map; of two fields with equal keys the later one counts. -/
def readMap {κ ν : Type} [Ord κ] [Std.TransOrd κ] (readKey : String → Option κ)
    (readValue : Json → Option ν) (value : Json) : Option (Std.ExtTreeMap κ ν) := do
  (← value.fields?).foldlM (fun map (name, value) => do
    return map.insert (← readKey name) (← readValue value)) ∅

def readSlots : Json → Option (Std.ExtTreeMap Word Word) :=
  readMap wordOfText? readWord

/-! ## Parts of a case -/

/-- Reads the block; what it leaves open has its usual value. -/
def readEnv (value : Json) : Option Env := do
  let record ← Json.Record.ofJson? false
    ["chain_id", "number", "timestamp", "gas_limit", "coinbase", "difficulty", "block_hash"] value
  let chainId ← record.optional "chain_id" readAmount
  let number ← record.optional "number" readAmount
  let timestamp ← record.optional "timestamp" readAmount
  let gasLimit ← record.optional "gas_limit" readAmount
  let coinbase ← record.optional "coinbase" readAddress
  let difficulty ← record.optional "difficulty" readWord
  let blockHash ← record.optional "block_hash" readWord
  let usual : Env := {}
  some
    { chainId := chainId.getD usual.chainId
      blockNumber := number.getD usual.blockNumber
      timestamp := timestamp.getD usual.timestamp
      gasLimit := gasLimit.getD usual.gasLimit
      coinbase := coinbase.getD usual.coinbase
      difficulty := difficulty.getD usual.difficulty
      blockHash := (blockHash.map Hash.ofWord).getD usual.blockHash }

/-- Reads the frame; the caller is also the origin unless that is given. -/
def readParams (value : Json) : Option Params := do
  let record ← Json.Record.ofJson? false
    ["address", "caller", "origin", "code", "data", "gas", "value", "gas_price"] value
  let address ← record.required "address" readAddress
  let caller ← record.required "caller" readAddress
  let origin ← record.optional "origin" readAddress
  let code ← record.required "code" readBytes
  let data ← record.defaulted "data" readBytes []
  let gas ← record.required "gas" readAmount
  let value ← record.defaulted "value" readWord 0
  let gasPrice ← record.defaulted "gas_price" readWord 0
  some
    { address := address
      sender := caller
      origin := origin.getD caller
      gas := gas
      gasPrice := gasPrice
      value := value
      code := code
      data := data }

def readAccount (value : Json) : Option (Account × Std.ExtTreeMap Word Word) := do
  let record ← Json.Record.ofJson? false ["balance", "code", "nonce", "storage"] value
  let balance ← record.defaulted "balance" readWord 0
  let code ← record.defaulted "code" readBytes []
  let nonce ← record.defaulted "nonce" readAmount 0
  let slots ← record.defaulted "storage" readSlots ∅
  some (⟨balance, code, nonce⟩, slots)

def readAccounts (value : Json) : Option Backend := do
  let accounts ← readMap addressOfText? readAccount value
  some (accounts.foldl (fun backend address (account, slots) =>
    slots.foldl (fun backend key value => backend.setStorage address key value)
      (backend.modify address fun _ => account)) {})

def readExpectation (value : Json) : Option Expectation := do
  let record ← Json.Record.ofJson? false ["status", "gas_left", "storage", "logs", "out"] value
  let status ← record.defaulted "status" Json.text? "success"
  let gasLeft ← record.optional "gas_left" readAmount
  let storage ← record.defaulted "storage" (readMap addressOfText? readSlots) ∅
  let logs ← record.optional "logs" Json.natural?
  let output ← record.optional "out" readBytes
  some ⟨status, gasLeft, storage, logs, output⟩

def ofJson? (value : Json) : Option Fixture := do
  let record ← Json.Record.ofJson? false ["env", "exec", "pre", "expect"] value
  let env ← record.defaulted "env" readEnv {}
  let params ← record.required "exec" readParams
  let pre ← record.defaulted "pre" readAccounts {}
  let expect ← record.required "expect" readExpectation
  some ⟨env, params, pre, expect⟩

end Fixture

end EvmLedger
