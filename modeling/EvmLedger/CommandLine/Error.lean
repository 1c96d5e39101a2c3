/-
# EvmLedger.CommandLine.Error -- why a command fails

The text of an error names what went wrong and then, after colons, the causes
behind it one by one; a cause that is already part of the text in front of it
stands there once more.
-/

import EvmLedger.Fixture.Directory
import EvmLedger.Rlp.Json
import EvmLedger.Transaction

namespace EvmLedger.CommandLine

set_option autoImplicit false

inductive Error where
  | invalidAddress (cause : Address.Error)
  /-- a private key is not hexadecimal -/
  | invalidKeyHex (cause : Hex.Error)
  /-- a private key has a wrong length or is out of range -/
  | invalidKey
  | invalidHex (cause : Hex.Error)
  | notANumber (text : String)
  /-- a value inside a tree is neither a string nor an array -/
  | notATree (value : Json)
  /-- an account has no name -/
  | emptyName
  | transaction (cause : Transaction.Error)
  | rlp (cause : Rlp.Error)
  | vm (cause : Vm.Refusal)
  /-- more gas is left than there was -/
  | gasGained
  | fixtures (cause : Fixture.DirectoryError)
  /-- some cases do not pass -/
  | fixturesFailed (count : Nat)
  /-- a file cannot be read or written -/
  | io
  /-- a text is not JSON -/
  | json
  /-- a config file does not say what it should -/
  | malformedConfig
  /-- there is a config file already -/
  | configExists (path : String)
  /-- the config file cannot be loaded -/
  | loading (path : String) (cause : Error)
  /-- there is no home directory to look for the config file -/
  | noHome

/-- Whether the program ends without any answer. -/
def Error.isFatal : Error → Bool
  | .transaction .recoveryOverflow | .vm .unpriced | .gasGained | .fixtures .fatal => true
  | _ => false

/-- The complaint of the tree reader. -/
def Error.ofTree : Rlp.TreeError → Error
  | .invalidHex cause => .invalidHex cause
  | .unexpected value => .notATree value

/-- The cause that a complaint about a transaction wraps. -/
def innerCause? : Transaction.Error → Option String
  | .rlp cause => some cause.message
  | .crypto cause => some cause.message
  | _ => none

/-- The complaint with all causes behind it. -/
def Error.message : Error → String
  | .invalidAddress cause => "Invalid address: " ++ cause.message
  | .invalidKeyHex cause => "Invalid private key: invalid hex string: " ++ cause.message
  | .invalidKey => "Invalid private key: signature error"
  | .invalidHex cause => "Invalid hex: invalid hex string: " ++ cause.message
  | .notANumber text => "Invalid input: not a 256-bit number: " ++ text
  | .notATree value =>
      "Invalid input: expected a hex string or an array, got " ++ value.sorted.compact
  | .emptyName => "Invalid input: account name is empty"
  | .transaction cause =>
      let inner := match innerCause? cause with
        | some text => ": " ++ text
        | none => ""
      "Transaction error: " ++ cause.message ++ ": " ++ cause.message ++ inner
  | .rlp cause => "RLP error: " ++ cause.message ++ ": " ++ cause.message
  | .vm cause => "VM error: " ++ cause.message ++ ": " ++ cause.message
  | .gasGained => "more gas is left than there was"
  | .fixtures .unreadable => "Fixture error: IO error"
  | .fixtures .malformed => "Fixture error: JSON error"
  | .fixtures .fatal => "Fixture error: the price of an instruction is out of range"
  | .fixturesFailed count => toString count ++ " fixture(s) failed"
  | .io => "IO error"
  | .json => "JSON error"
  | .malformedConfig => "Config error"
  | .configExists path => "Config error: " ++ path ++ " already exists"
  | .loading path cause => "loading " ++ path ++ ": " ++ cause.message
  | .noHome => "cannot determine home directory"

end EvmLedger.CommandLine
