/-
# EvmLedger.CommandLine.Arguments -- words on a command line

The words of one command are switches, operands and perhaps the name of a
command of its own, which ends them.  A switch is given by its long name after
two dashes or by its letter after one; it takes no value, or the value attached
to it, or the next word, which must then not look like a switch.  Two dashes
alone make all further words operands.  No switch may be repeated.
-/

import EvmLedger.Quantity

namespace EvmLedger.CommandLine

set_option autoImplicit false

/-- Why the words on a command line are not carried out. -/
inductive Stop where
  /-- they are not understood -/
  | usage
  /-- help is asked for -/
  | help
  /-- the version is asked for -/
  | version
  deriving DecidableEq, Repr

inductive ValueKind where
  | text
  /-- a text that is not empty -/
  | path
  /-- a decimal number below `2 ^ 64` -/
  | amount
  deriving DecidableEq, Repr

/-- The amount in a text of decimal digits after an optional plus sign. -/
def amount? (text : String) : Option Nat := do
  let digits := match text.toList with
    | '+' :: digits => digits
    | digits => digits
  if digits.isEmpty ∨ digits.any (fun c => !c.isDigit) then none
  else
    let n := digits.foldl (fun n c => n * 10 + (c.toNat - 48)) 0
    if n < Quantity.bound then some n else none

def ValueKind.accepts (text : String) : ValueKind → Bool
  | .text => true
  | .path => text ≠ ""
  | .amount => (amount? text).isSome

/-- A switch. -/
structure Switch where
  name : String
  letter : Option Char
  /-- what value it takes, if any -/
  takes : Option ValueKind

/-- What words a command knows. -/
structure Grammar where
  switches : List Switch
  /-- what operands may be, in order -/
  operands : List ValueKind
  /-- the names of its own commands -/
  commands : List String

/-- The words of a command. -/
structure Matches where
  /-- the switches given, with their values; those without have an empty one -/
  given : List (String × String) := []
  operands : List String := []
  deriving DecidableEq, Repr

namespace Matches

def get? (m : Matches) (name : String) : Option String := m.given.lookup name

def has (m : Matches) (name : String) : Bool := (m.get? name).isSome

def getD (m : Matches) (name fallback : String) : String := (m.get? name).getD fallback

def give (m : Matches) (switch : Switch) (value : String) : Except Stop Matches :=
  if switch.name = "help" then .error .help
  else if switch.name = "version" then .error .version
  else if m.has switch.name ∨ switch.takes.any (fun kind => !kind.accepts value) then
    .error .usage
  else .ok { m with given := m.given ++ [(switch.name, value)] }

def operand (m : Matches) (g : Grammar) (value : String) : Except Stop Matches :=
  match g.operands[m.operands.length]? with
  | some kind =>
      if kind.accepts value then .ok { m with operands := m.operands ++ [value] }
      else .error .usage
  | none => .error .usage

end Matches

/-- Reads a switch given by its long name, without the dashes.  Gives the switch if it waits for a
value. -/
def readLong (g : Grammar) (m : Matches) (word : List Char) :
    Except Stop (Matches × Option Switch) := do
  let name := String.ofList (word.takeWhile (· ≠ '='))
  match g.switches.find? (·.name = name) with
  | none => .error .usage
  | some switch =>
      match switch.takes, word.dropWhile (· ≠ '=') with
      | none, [] => return (← m.give switch "", none)
      | none, _ => .error .usage
      | some _, [] => return (m, some switch)
      | some _, _ :: value => return (← m.give switch (String.ofList value), none)

/-- Reads switches given by their letters, without the dash.  Gives the last one if it waits for a
value. -/
def readLetters (g : Grammar) (m : Matches) : List Char → Except Stop (Matches × Option Switch)
  | [] => .ok (m, none)
  | c :: rest =>
      match g.switches.find? (·.letter = some c) with
      | none => .error .usage
      | some switch =>
          match switch.takes, rest with
          | none, rest => do readLetters g (← m.give switch "") rest
          | some _, [] => .ok (m, some switch)
          | some _, '=' :: value => do return (← m.give switch (String.ofList value), none)
          | some _, value => do return (← m.give switch (String.ofList value), none)

/-- Reads the words of a command, up to the name of one of its own commands.  `waiting` is the
switch whose value comes next; `plain` tells whether all words are operands. -/
def readWords (g : Grammar) (waiting : Option Switch) (plain : Bool) (m : Matches) :
    List String → Except Stop (Matches × Option (String × List String))
  | [] => if waiting.isSome then .error .usage else .ok (m, none)
  | word :: rest =>
      match waiting with
      | some switch =>
          match word.toList with
          | '-' :: _ :: _ => .error .usage
          | _ => do readWords g none plain (← m.give switch word) rest
      | none =>
          if plain then do readWords g none plain (← m.operand g word) rest
          else if g.commands.contains word then .ok (m, some (word, rest))
          else
            match word.toList with
            | ['-', '-'] => readWords g none true m rest
            | '-' :: '-' :: long => do
                let (m, waiting) ← readLong g m long
                readWords g waiting plain m rest
            | '-' :: c :: letters => do
                let (m, waiting) ← readLetters g m (c :: letters)
                readWords g waiting plain m rest
            | _ => do readWords g none plain (← m.operand g word) rest

end EvmLedger.CommandLine
