/-
# EvmLedger.CommandLine.Invocation -- what the program is asked to do

The commands with their switches and operands.  Some switches are common to all
commands and may stand behind the name of any of them; of two config files the
one named further inside counts.  Texts that stand for addresses, words and
bytes are taken as they are and read when the command is carried out.
-/

import EvmLedger.CommandLine.Arguments

namespace EvmLedger.CommandLine

set_option autoImplicit false

/-! ## Commands -/

structure RunRequest where
  code : String
  data : String
  gas : Option Nat
  value : String
  /-- the balance of the caller -/
  balance : String
  address : String
  caller : String
  /-- whether the code initialises a contract -/
  create : Bool
  deriving DecidableEq, Repr

structure SignRequest where
  key : String
  /-- the recipient; none to create a contract -/
  recipient : Option String
  nonce : String
  value : String
  data : String
  gasLimit : String
  gasPrice : String
  /-- whether the signature names no chain -/
  legacy : Bool
  deriving DecidableEq, Repr

/-- A command with what it needs. -/
inductive Command where
  | run (request : RunRequest)
  | txDecode (raw : String)
  | txSign (request : SignRequest)
  | rlpDecode (data : String) (all : Bool)
  | rlpEncode (tree : String)
  | addressLegacy (sender nonce : String)
  | addressSalted (sender salt initCode : String)
  | accountId (name address : String)
  | fixtures (directory : String)
  | config (init display : Bool)
  deriving DecidableEq, Repr

/-- What the program is asked to do. -/
structure Invocation where
  /-- whether the answer is to be JSON -/
  json : Bool
  /-- the config file, if it is not the usual one -/
  config : Option String
  command : Command
  deriving DecidableEq, Repr

/-! ## Switches -/

def flag (name : String) : Switch := ⟨name, none, none⟩

def option (name : String) : Switch := ⟨name, none, some .text⟩

def lettered (letter : Char) (name : String) : Switch := ⟨name, some letter, some .text⟩

def commonSwitches : List Switch :=
  [⟨"help", some 'h', none⟩, flag "json", ⟨"config", none, some .path⟩, option "log-level",
   flag "log-json"]

/-- What a command knows that has commands of its own. -/
def group (commands : List String) (switches : List Switch) : Grammar :=
  ⟨commonSwitches ++ switches, [], "help" :: commands⟩

/-- What any other command knows. -/
def leaf (operands : List ValueKind) (switches : List Switch) : Grammar :=
  ⟨commonSwitches ++ switches, operands, []⟩

/-- What may stand right behind the name of the program. -/
def topGrammar : Grammar :=
  group ["run", "tx", "rlp", "address", "account-id", "fixtures", "config"]
    [⟨"version", some 'V', none⟩]

def runGrammar : Grammar :=
  leaf [.text] [lettered 'd' "data", ⟨"gas", some 'g', some .amount⟩, option "value",
    option "balance", option "address", option "caller", flag "create"]

def signGrammar : Grammar :=
  leaf [] [lettered 'k' "key", lettered 't' "to", lettered 'n' "nonce", lettered 'v' "value",
    lettered 'd' "data", option "gas-limit", option "gas-price", flag "legacy"]

/-! ## Building commands -/

/-- The account that code runs in unless another is named. -/
def usualAddress : String := "0x0f572e5295c57f15886f9b263e2f6d2d6c7b5ec6"

/-- The account that code is called by unless another is named. -/
def usualCaller : String := "0xcd1722f2947def4cf144679da39c4c32bdc35681"

def runRequest? (m : Matches) : Option RunRequest :=
  match m.operands with
  | [code] =>
      some
        { code := code
          data := m.getD "data" ""
          gas := (m.get? "gas").bind amount?
          value := m.getD "value" "0"
          balance := m.getD "balance" "0"
          address := m.getD "address" usualAddress
          caller := m.getD "caller" usualCaller
          create := m.has "create" }
  | _ => none

def signRequest? (m : Matches) : Option SignRequest := do
  some
    { key := ← m.get? "key"
      recipient := m.get? "to"
      nonce := m.getD "nonce" "1"
      value := m.getD "value" "0"
      data := m.getD "data" ""
      gasLimit := m.getD "gas-limit" "100000"
      gasPrice := m.getD "gas-price" "0"
      legacy := m.has "legacy" }

/-- A command without commands of its own: what it knows, and how to build it. -/
structure Leaf where
  grammar : Grammar
  build : Matches → Option Command

inductive Verb where
  | leaf (l : Leaf)
  | group (members : List (String × Leaf))

def single (f : Matches → String → Command) (m : Matches) : Option Command :=
  match m.operands with
  | [a] => some (f m a)
  | _ => none

def verb? : String → Option Verb
  | "run" => some (.leaf ⟨runGrammar, fun m => (runRequest? m).map .run⟩)
  | "tx" => some (.group
      [("decode", ⟨leaf [.text] [], single fun _ raw => .txDecode raw⟩),
       ("sign", ⟨signGrammar, fun m => (signRequest? m).map .txSign⟩)])
  | "rlp" => some (.group
      [("decode", ⟨leaf [.text] [flag "all"], single fun m data => .rlpDecode data (m.has "all")⟩),
       ("encode", ⟨leaf [.text] [], single fun _ tree => .rlpEncode tree⟩)])
  | "address" => some (.group
      [("legacy", ⟨leaf [] [lettered 's' "sender", lettered 'n' "nonce"], fun m => do
          some (.addressLegacy (← m.get? "sender") (← m.get? "nonce"))⟩),
       ("create2", ⟨leaf [] [lettered 's' "sender", option "salt", lettered 'i' "init-code"],
          fun m => do
            some (.addressSalted (← m.get? "sender") (← m.get? "salt") (← m.get? "init-code"))⟩)])
  | "account-id" => some (.leaf ⟨leaf [.text, .text] [], fun m =>
      match m.operands with
      | [name, address] => some (.accountId name address)
      | _ => none⟩)
  | "fixtures" => some (.leaf ⟨leaf [.path] [⟨"verbose", some 'v', none⟩],
      single fun _ directory => .fixtures directory⟩)
  | "config" => some (.leaf ⟨leaf [] [flag "show", flag "init"], fun m =>
      some (.config (m.has "init") (m.has "show"))⟩)
  | _ => none

namespace Invocation

/-- The command that words behind its name describe, with the words of the commands around it. -/
def ofLeaf (outer : List Matches) (l : Leaf) (words : List String) : Except Stop Invocation := do
  let (m, _) ← readWords l.grammar none false {} words
  match l.build m with
  | none => .error .usage
  | some command =>
      let levels := m :: outer
      return ⟨levels.any (·.has "json"), levels.findSome? (·.get? "config"), command⟩

def commandName : Option (String × List String) → Except Stop (String × List String)
  | none => .error .usage
  | some ("help", _) => .error .help
  | some next => .ok next

/-- What the words behind the name of the program ask for. -/
def parse (words : List String) : Except Stop Invocation := do
  let (top, next) ← readWords topGrammar none false {} words
  let (name, words) ← commandName next
  match verb? name with
  | none => .error .usage
  | some (.leaf l) => ofLeaf [top] l words
  | some (.group members) => do
      let (middle, next) ← readWords (group (members.map Prod.fst) []) none false {} words
      let (name, words) ← commandName next
      match members.lookup name with
      | none => .error .usage
      | some l => ofLeaf [middle, top] l words

end Invocation

end EvmLedger.CommandLine
