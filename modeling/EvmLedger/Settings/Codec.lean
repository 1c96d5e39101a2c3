/-
# EvmLedger.Settings.Codec -- settings in configuration files

The names of the settings and of the prices as they stand in files, and how
their values are written.  Every setting and every price has a default, so any
of them may be left out.

In files of which a list may be longer than expected, the surplus is ignored.

Addresses and hashes are texts of digits after an optional `0x`.  The difficulty
is a text of one to sixty-four digits; an odd first digit stands for itself, and
blanks among the digits are skipped although they count for the length.
-/

import EvmLedger.Json.Record
import EvmLedger.Settings

namespace EvmLedger

set_option autoImplicit false

open Vm (Schedule TierPrices)

/-! ## Prices -/

/-- A price with its name in files. -/
structure Price where
  name : String
  get : Schedule → Nat
  set : Schedule → Nat → Schedule

/-- All prices but those of the cost classes. -/
def Price.all : List Price :=
  [⟨"exp_gas", (·.exp), fun s n => { s with exp := n }⟩,
   ⟨"exp_byte_gas", (·.expByte), fun s n => { s with expByte := n }⟩,
   ⟨"sha3_gas", (·.sha3), fun s n => { s with sha3 := n }⟩,
   ⟨"sha3_word_gas", (·.sha3Word), fun s n => { s with sha3Word := n }⟩,
   ⟨"sload_gas", (·.sload), fun s n => { s with sload := n }⟩,
   ⟨"sstore_set_gas", (·.sstoreSet), fun s n => { s with sstoreSet := n }⟩,
   ⟨"sstore_reset_gas", (·.sstoreReset), fun s n => { s with sstoreReset := n }⟩,
   ⟨"sstore_refund_gas", (·.sstoreRefund), fun s n => { s with sstoreRefund := n }⟩,
   ⟨"jumpdest_gas", (·.jumpDest), fun s n => { s with jumpDest := n }⟩,
   ⟨"log_gas", (·.log), fun s n => { s with log := n }⟩,
   ⟨"log_topic_gas", (·.logTopic), fun s n => { s with logTopic := n }⟩,
   ⟨"log_data_gas", (·.logData), fun s n => { s with logData := n }⟩,
   ⟨"extcodehash_gas", (·.extCodeHash), fun s n => { s with extCodeHash := n }⟩,
   ⟨"call_gas", (·.call), fun s n => { s with call := n }⟩,
   ⟨"call_value_transfer_gas", (·.callValueTransfer), fun s n => { s with callValueTransfer := n }⟩,
   ⟨"call_new_account_gas", (·.callNewAccount), fun s n => { s with callNewAccount := n }⟩,
   ⟨"call_stipend", (·.callStipend), fun s n => { s with callStipend := n }⟩,
   ⟨"create_gas", (·.create), fun s n => { s with create := n }⟩,
   ⟨"create_data_gas", (·.createData), fun s n => { s with createData := n }⟩,
   ⟨"copy_gas", (·.copy), fun s n => { s with copy := n }⟩,
   ⟨"memory_gas", (·.memory), fun s n => { s with memory := n }⟩,
   ⟨"quad_coeff_div", (·.quadCoeffDiv), fun s n => { s with quadCoeffDiv := n }⟩,
   ⟨"suicide_gas", (·.suicide), fun s n => { s with suicide := n }⟩,
   ⟨"suicide_refund_gas", (·.suicideRefund), fun s n => { s with suicideRefund := n }⟩,
   ⟨"tx_gas", (·.tx), fun s n => { s with tx := n }⟩,
   ⟨"tx_create_gas", (·.txCreate), fun s n => { s with txCreate := n }⟩,
   ⟨"tx_data_zero_gas", (·.txDataZero), fun s n => { s with txDataZero := n }⟩,
   ⟨"tx_data_non_zero_gas", (·.txDataNonZero), fun s n => { s with txDataNonZero := n }⟩,
   ⟨"sub_gas_cap_divisor", (·.subGasCapDivisor), fun s n => { s with subGasCapDivisor := n }⟩]

def tierPricesName : String := "tier_step_gas"

/-- The prices of the cost classes, all seven of them. -/
def readTierPrices (surplus : Bool) (value : Json) : Option TierPrices := do
  let items ← value.items?
  if !surplus ∧ 7 < items.length then none
  else
    match ← (items.take 7).mapM Json.natural? with
    | [free, base, veryLow, low, mid, high, ext] =>
        some ⟨free, base, veryLow, low, mid, high, ext⟩
    | _ => none

def TierPrices.toList (t : TierPrices) : List Nat :=
  [t.zero, t.base, t.veryLow, t.low, t.mid, t.high, t.ext]

/-- A price list in which missing prices are the Frontier ones. -/
def readSchedule (surplus : Bool) (value : Json) : Option Schedule := do
  let record ← Json.Record.ofJson? surplus (tierPricesName :: Price.all.map (·.name)) value
  let tiers ← record.defaulted tierPricesName (readTierPrices surplus) {}
  Price.all.foldlM (fun schedule price => do
    let amount ← record.defaulted price.name Json.natural? (price.get schedule)
    some (price.set schedule amount)) { tiers := tiers }

def scheduleJson (s : Schedule) : Json :=
  .object ((tierPricesName, .array ((TierPrices.toList s.tiers).map .natural)) ::
    Price.all.map fun price => (price.name, .natural (price.get s)))

/-! ## Values -/

def readAddress (value : Json) : Option Address := do
  (Address.ofHex? (← value.text?)).toOption

def readHash (value : Json) : Option Hash := do
  (Hash.ofHex? (← value.text?)).toOption

/-- The bytes in a text of digits.  `half` tells whether the digit to come is the second one of a
byte whose first one is `buffer`; blanks are skipped. -/
def readNibbles (half : Bool) (buffer : UInt8) : List UInt8 → Option Bytes
  | [] => some []
  | c :: rest =>
      if c = 32 ∨ c = 13 ∨ c = 10 ∨ c = 9 then readNibbles half buffer rest
      else do
        let buffer := buffer * 16 + (← Hex.digitValue? c)
        if half then some (buffer :: (← readNibbles false buffer rest))
        else readNibbles true buffer rest

/-- Reads a text of one to sixty-four digits as a word. -/
def readDifficulty (value : Json) : Option Word := do
  let digits := Hex.utf8 (Hex.strip0x (← value.text?).toList)
  if digits.length = 0 ∨ 64 < digits.length then none
  else some (Word.ofBytes (← readNibbles (digits.length % 2 = 1) 0 digits))

/-! ## Settings -/

namespace Settings

def names : List String :=
  ["chain_id", "block_gas_limit", "block_number", "timestamp", "coinbase", "difficulty",
   "block_hash", "max_call_depth", "allow_raw_code", "schedule"]

/-- Reads settings.  `surplus` tells whether lists may be too long. -/
def ofJson? (surplus : Bool) (value : Json) : Option Settings := do
  let record ← Json.Record.ofJson? surplus names value
  let chainId ← record.defaulted "chain_id" Json.natural? 1
  let blockGasLimit ← record.defaulted "block_gas_limit" Json.natural? 10000000
  let blockNumber ← record.defaulted "block_number" Json.natural? 0
  let timestamp ← record.defaulted "timestamp" Json.natural? 0
  let coinbase ← record.defaulted "coinbase" readAddress .zero
  let difficulty ← record.defaulted "difficulty" readDifficulty 0
  let blockHash ← record.defaulted "block_hash" readHash .zero
  let maxCallDepth ← record.defaulted "max_call_depth" Json.natural? 1024
  let allowRawCode ← record.defaulted "allow_raw_code" Json.bool? false
  let schedule ← record.defaulted "schedule" (readSchedule surplus) {}
  some
    { chainId := chainId
      blockGasLimit := blockGasLimit
      blockNumber := blockNumber
      timestamp := timestamp
      coinbase := coinbase
      difficulty := difficulty
      blockHash := blockHash
      maxCallDepth := maxCallDepth
      allowRawCode := allowRawCode
      schedule := schedule }

def toJson (s : Settings) : Json :=
  .object
    [("chain_id", .natural s.chainId),
     ("block_gas_limit", .natural s.blockGasLimit),
     ("block_number", .natural s.blockNumber),
     ("timestamp", .natural s.timestamp),
     ("coinbase", .string s.coinbase.toHex),
     ("difficulty", .string s.difficulty.toHex),
     ("block_hash", .string s.blockHash.toHex),
     ("max_call_depth", .natural s.maxCallDepth),
     ("allow_raw_code", .bool s.allowRawCode),
     ("schedule", scheduleJson s.schedule)]

end Settings

end EvmLedger
