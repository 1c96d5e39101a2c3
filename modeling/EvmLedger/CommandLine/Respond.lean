/-
# EvmLedger.CommandLine.Respond -- carrying out commands

A command sees the config file and, if it runs test cases, a directory.  It
answers with what is to be printed, with the reason if it fails, and with the
file it wants to be written, if any.  Nothing is done here that could not be
undone: reading and writing files is left to the caller.

The config file holds the filter of the log, the gas for frames that do not name
any, and the settings of the chain.  All of them have defaults, and so has the file
itself.

An answer is collected in two forms at once: fields for a JSON object, which are
written in the order of their names, and lines of text.  Which one is printed is
decided at the end.

The arguments of a command are read in a fixed order, and the first one that
makes no sense decides the error.
-/

import EvmLedger.CommandLine.Error
import EvmLedger.CommandLine.Invocation
import EvmLedger.ContractAddress
import EvmLedger.Json.Printer
import EvmLedger.Json.Reader
import EvmLedger.Rlp.Decode
import EvmLedger.Settings.Codec
import EvmLedger.Toml.Printer
import EvmLedger.Toml.Reader
import EvmLedger.Vm.Backend
import EvmLedger.Vm.Machine

namespace EvmLedger.CommandLine

set_option autoImplicit false

open Vm (Backend Effects Log Params)

/-! ## The config file -/

/-- What a config file says. -/
structure Config where
  logFilter : String := "warn"
  /-- the gas of a frame that does not name any -/
  gas : Nat := 1000000
  settings : Settings := {}
  deriving DecidableEq, Repr

namespace Config

def ofText? (text : String) : Option Config := do
  let record ← Json.Record.ofJson? true ["log_filter", "gas", "executor"] (← Toml.parse text)
  let logFilter ← record.defaulted "log_filter" Json.text? "warn"
  let gas ← record.defaulted "gas" Json.natural? 1000000
  let settings ← record.defaulted "executor" (Settings.ofJson? true) {}
  some ⟨logFilter, gas, settings⟩

def toText (c : Config) : String :=
  Toml.render (.object
    [("log_filter", .string c.logFilter), ("gas", .natural c.gas),
     ("executor", c.settings.toJson)])

/-- Where the config file is, seen from the home directory. -/
def pathIn (home : String) : String :=
  (if home.endsWith "/" then home else home ++ "/") ++ ".keel/config.toml"

end Config

/-! ## Answers -/

/-- An answer in both forms. -/
structure Output where
  fields : List (String × Json) := []
  lines : List String := []

namespace Output

def field (o : Output) (name : String) (value : Json) : Output :=
  { o with fields := o.fields ++ [(name, value)] }

def text (o : Output) (name value : String) : Output :=
  o.field name (.string value)

def line (o : Output) (text : String) : Output :=
  { o with lines := o.lines ++ [text] }

/-- Adds a line with a label, all labels taking up the same room. -/
def labeled (o : Output) (label value : String) : Output :=
  let label := label ++ ":"
  o.line (label ++ String.ofList (List.replicate (12 - label.length) ' ') ++ value)

def render (o : Output) (json : Bool) : String :=
  if json then (Json.object o.fields).sorted.pretty ++ "\n"
  else if o.lines.isEmpty then ""
  else String.intercalate "\n" o.lines ++ "\n"

end Output

/-! ## Arguments -/

def readBytes (text : String) : Except Error Bytes :=
  (Hex.decode text).mapError .invalidHex

/-- Reads an address, ignoring blanks around it. -/
def readAddress (text : String) : Except Error Address :=
  (Address.ofHex? (String.ofList (Text.trim text.toList))).mapError .invalidAddress

/-- Reads a word, ignoring blanks around it. -/
def readWord (text : String) : Except Error Word :=
  let text := Text.trim text.toList
  match Word.ofText? text with
  | some w => .ok w
  | none => .error (.notANumber (String.ofList text))

def readKey (text : String) : Except Error Crypto.PrivateKey :=
  match Hex.decode text with
  | .error cause => .error (.invalidKeyHex cause)
  | .ok bytes =>
      match Crypto.PrivateKey.ofBytes? bytes with
      | some key => .ok key
      | none => .error .invalidKey

/-! ## Frames -/

def slotsJson (e : Effects) : Json :=
  .array (e.storage.toList.map fun (slot, value) =>
    .object [("address", .string slot.contract.toHex), ("key", .string slot.key.toHex),
      ("value", .string value.toHex)])

def logJson (log : Log) : Json :=
  .object [("address", .string log.address.toHex),
    ("topics", .array (log.topics.map fun topic => .string topic.toHex)),
    ("data", .string (Hex.encodePrefixed log.data))]

/-- Adds what a successful run did. -/
def describeEffects (o : Output) (e : Effects) : Output :=
  let slots := e.storage.toList
  let o := if slots.isEmpty then o else o.line "Storage:"
  let o := slots.foldl (fun o (slot, value) =>
    o.line ("  " ++ slot.contract.toHex ++ "[" ++ slot.key.toHex ++ "] = " ++ value.toHex)) o
  let o := o.labeled "Logs" (toString e.logs.size)
  let o := e.codes.toList.foldl (fun o (address, code) =>
    o.labeled "Deployed" (address.toHex ++ " (" ++ toString code.length ++ " bytes)")) o
  o.field "storage" (slotsJson e)
    |>.field "logs" (.array (e.logs.toList.map logJson))
    |>.field "deployed" (.object (e.codes.toList.map fun (address, code) =>
      (address.toHex, .string (Hex.encodePrefixed code))))
    |>.field "refund" (.natural e.refund)

def run (config : Config) (request : RunRequest) : Except Error Output := do
  let code ← readBytes request.code
  let data ← readBytes request.data
  let value ← readWord request.value
  let address ← readAddress request.address
  let caller ← readAddress request.caller
  let balance ← readWord request.balance
  let gas := request.gas.getD config.gas
  let backend := ({} : Backend).modify caller ({ · with balance := balance })
  let backend :=
    if request.create then backend else backend.modify address ({ · with code := code })
  let params : Params :=
    { address := address
      sender := caller
      origin := caller
      gas := gas
      value := value
      code := code
      data := data
      kind := if request.create then .create .create else .call .call }
  let ctx : Vm.Context :=
    { schedule := config.settings.schedule
      env := config.settings.env
      maxDepth := config.settings.maxCallDepth
      host := backend.host }
  let outcome ← (Vm.execute ctx params).mapError .vm
  let result := outcome.result
  let some used := Quantity.sub? gas result.gasLeft | .error .gasGained
  let output := Hex.encodePrefixed result.output
  let report := ({} : Output)
    |>.text "status" result.status
    |>.field "gas_left" (.natural result.gasLeft)
    |>.field "gas_used" (.natural used)
    |>.text "output" output
    |>.labeled "Status" result.status
    |>.labeled "Gas used" (toString used)
    |>.labeled "Gas left" (toString result.gasLeft)
    |>.labeled "Output" output
  return if result.isSuccess then describeEffects report outcome.effects else report

/-! ## Transactions -/

/-- Signs a transaction, for the chain of the settings unless the signature is to name none. -/
def signTransaction (config : Config) (request : SignRequest) : Except Error Output := do
  let key ← readKey request.key
  let action : Transaction.Action ← match request.recipient with
    | some recipient => (.call ·) <$> readAddress recipient
    | none => .ok .create
  let nonce ← readWord request.nonce
  let gasPrice ← readWord request.gasPrice
  let gasLimit ← readWord request.gasLimit
  let value ← readWord request.value
  let data ← readBytes request.data
  let tx : Transaction :=
    { action := action
      nonce := nonce
      gasPrice := gasPrice
      gasLimit := gasLimit
      value := value
      data := data
      signature := {} }
  let chain := if request.legacy then none else some config.settings.chainId
  let tx ← (tx.sign key chain).mapError .transaction
  let raw := Hex.encodePrefixed tx.encode
  let sender ← tx.recoverSender.mapError .transaction
  return ({} : Output)
    |>.text "raw" raw
    |>.text "hash" tx.hash.toHex
    |>.text "sender" sender.toHex
    |>.line raw

def decodeTransaction (raw : String) : Except Error Output := do
  let tx ← (Transaction.parse (← readBytes raw)).mapError .transaction
  let recipient := match tx.recipient with
    | some address => address.toHex
    | none => "create"
  let data := Hex.encodePrefixed tx.data
  let o := ({} : Output)
    |>.text "hash" tx.hash.toHex
    |>.text "to" recipient
    |>.text "nonce" tx.nonce.toDecimal
    |>.text "gas_price" tx.gasPrice.toDecimal
    |>.text "gas_limit" tx.gasLimit.toDecimal
    |>.text "value" tx.value.toDecimal
    |>.text "data" data
    |>.field "signed" (.bool tx.isSigned)
    |>.labeled "Hash" tx.hash.toHex
    |>.labeled "To" recipient
    |>.labeled "Nonce" tx.nonce.toDecimal
    |>.labeled "Gas price" tx.gasPrice.toDecimal
    |>.labeled "Gas limit" tx.gasLimit.toDecimal
    |>.labeled "Value" tx.value.toDecimal
    |>.labeled "Data" data
  if tx.isSigned then do
    let sender ← tx.recoverSender.mapError .transaction
    let o := o.text "sender" sender.toHex |>.labeled "Sender" sender.toHex
    match tx.signature.chainId with
    | some chain =>
        return o.field "chain_id" (.natural chain) |>.labeled "Chain ID" (toString chain)
    | none => return o
  else return o.labeled "Sender" "unsigned"

/-! ## Trees and addresses -/

/-- Shows the tree of an encoding, or the trees of several ones in a row. -/
def decodeTree (data : String) (all : Bool) : Except Error Output := do
  let bytes ← readBytes data
  let tree ←
    if all then (fun items => Json.array (Rlp.toJsonList items)) <$>
      (Rlp.decodeAll bytes).mapError .rlp
    else (·.toJson) <$> (Rlp.decode bytes).mapError .rlp
  return ({} : Output) |>.field "item" tree |>.line tree.pretty

def encodeTree (tree : String) : Except Error Output := do
  match Json.parse tree with
  | none => .error .json
  | some value =>
      let item ← (Rlp.Item.ofJson value).mapError .ofTree
      let encoded := Hex.encodePrefixed (Rlp.encode item)
      return ({} : Output) |>.text "encoded" encoded |>.line encoded

def showAddress (address : Address) : Output :=
  ({} : Output) |>.text "address" address.toHex |>.line address.toHex

def legacyAddress (sender nonce : String) : Except Error Output := do
  let sender ← readAddress sender
  let nonce ← readWord nonce
  return showAddress (ContractAddress.ofScheme .legacy sender nonce [])

def saltedAddress (sender salt initCode : String) : Except Error Output := do
  let sender ← readAddress sender
  let salt ← readWord salt
  let initCode ← readBytes initCode
  return showAddress (ContractAddress.ofScheme .salted sender salt initCode)

def accountId (name address : String) : Except Error Output :=
  if name = "" then .error .emptyName
  else do
    let identifier := ContractAddress.identifier name (← readAddress address)
    return ({} : Output)
      |>.text "name" name
      |>.text "identifier" identifier.toHex
      |>.line identifier.toHex

/-! ## Test cases -/

def describeStats (s : Fixture.Stats) : Output :=
  ({} : Output)
    |>.field "total" (.natural s.total)
    |>.field "passed" (.natural s.passed)
    |>.field "failed" (.natural s.failed)
    |>.field "failures" (.array (s.failures.map fun (name, reason) =>
      .object [("name", .string name), ("reason", .string reason)]))
    |>.line s.summary

/-! ## Configuration -/

def showConfig (config : Config) (path : String) : Output :=
  let settings := config.settings
  ({} : Output)
    |>.text "path" path
    |>.text "log_filter" config.logFilter
    |>.field "gas" (.natural config.gas)
    |>.field "chain_id" (.natural settings.chainId)
    |>.field "block_gas_limit" (.natural settings.blockGasLimit)
    |>.field "max_call_depth" (.natural settings.maxCallDepth)
    |>.field "allow_raw_code" (.bool settings.allowRawCode)
    |>.labeled "Path" path
    |>.labeled "Log filter" config.logFilter
    |>.labeled "Gas" (toString config.gas)
    |>.labeled "Chain ID" (toString settings.chainId)
    |>.labeled "Block gas" (toString settings.blockGasLimit)
    |>.labeled "Max depth" (toString settings.maxCallDepth)

/-- The answer once the default configuration has been written. -/
def configSaved (path : String) : Output :=
  ({} : Output)
    |>.text "status" "saved"
    |>.text "path" path
    |>.line ("Configuration written to " ++ path)

/-- The answer to a question about nothing. -/
def configHint : Output :=
  ({} : Output) |>.line "Use --show to display config, or --init to write the defaults"

/-! ## Responses -/

inductive FileState where
  | missing
  /-- there is something, but no text -/
  | unreadable
  | text (content : String)

/-- A file to be written, with its directories. -/
structure Save where
  path : String
  content : String

/-- What a command answers. -/
structure Response where
  /-- what is printed -/
  output : String
  failure : Option Error := none
  /-- what must be written first; if that fails, the answer is `Response.unsaved` -/
  save : Option Save := none

namespace Response

def failed (cause : Error) : Response := { output := "", failure := some cause }

def unsaved : Response := failed .io

/-- The answer to a command that needs no files. -/
def ofOutput (json : Bool) : Except Error Output → Response
  | .ok o => { output := o.render json }
  | .error cause => failed cause

def ofStats (json : Bool) (s : Fixture.Stats) : Response :=
  { output := (describeStats s).render json
    failure := if s.failed = 0 then none else some (.fixturesFailed s.failed) }

/-- The line that reports an error to a program. -/
def errorLine (cause : Error) : String :=
  (Json.object [("error", .string cause.message), ("success", .bool false)]).compact

end Response

namespace Invocation

def configPath (i : Invocation) (home : Option String) : Option String :=
  i.config.or (home.map Config.pathIn)

/-- The directory that the command needs to see. -/
def directory? (i : Invocation) : Option String :=
  match i.command with
  | .fixtures directory => some directory
  | _ => none

/-- The configuration in a file; without the file, the default one. -/
def loadConfig (path : String) : FileState → Except Error Config
  | .missing => .ok {}
  | .unreadable => .error (.loading path .io)
  | .text content =>
      match Config.ofText? content with
      | some config => .ok config
      | none => .error (.loading path .malformedConfig)

def respondConfig (json : Bool) (config : Config) (path : String) (file : FileState)
    (init display : Bool) : Response :=
  if init then
    match file with
    | .missing =>
        { output := (configSaved path).render json
          save := some ⟨path, ({} : Config).toText⟩ }
    | _ => .failed (.configExists path)
  else if display then { output := (showConfig config path).render json }
  else { output := configHint.render json }

/-- Carries out a command, given what the path of its config file leads to and the directory it
needs to see, if that can be listed. -/
def respond (i : Invocation) (path : String) (file : FileState)
    (directory : Option Fixture.Entry) : Response :=
  match loadConfig path file with
  | .error cause => .failed cause
  | .ok config =>
      match i.command with
      | .run request => .ofOutput i.json (run config request)
      | .txDecode raw => .ofOutput i.json (decodeTransaction raw)
      | .txSign request => .ofOutput i.json (signTransaction config request)
      | .rlpDecode data all => .ofOutput i.json (decodeTree data all)
      | .rlpEncode tree => .ofOutput i.json (encodeTree tree)
      | .addressLegacy sender nonce => .ofOutput i.json (legacyAddress sender nonce)
      | .addressSalted sender salt initCode =>
          .ofOutput i.json (saltedAddress sender salt initCode)
      | .accountId name address => .ofOutput i.json (accountId name address)
      | .fixtures _ =>
          match directory with
          | none => .failed (.fixtures .unreadable)
          | some directory =>
              match Fixture.runDirectory config.settings.schedule directory with
              | .ok stats => .ofStats i.json stats
              | .error cause => .failed (.fixtures cause)
      | .config init display => respondConfig i.json config path file init display

end Invocation

end EvmLedger.CommandLine
