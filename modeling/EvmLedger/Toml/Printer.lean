/-
# EvmLedger.Toml.Printer -- writing configuration files

A table is written as its plain entries followed by its subtables, each with a
header that names the whole path and an empty line in front.  Arrays have one
item on a line.
-/

import EvmLedger.Json.Printer

namespace EvmLedger.Toml

set_option autoImplicit false

def valueText : Json → String
  | .array items =>
      if items.isEmpty then "[]"
      else "[\n" ++ String.join ((items.map Json.compact).map fun item => "    " ++ item ++ ",\n") ++ "]"
  | value => value.compact

/-- Whether a value is written under a header of its own. -/
def isTable : Json → Bool
  | .object _ => true
  | _ => false

def plainLines (fields : List (String × Json)) : List String :=
  (fields.filter fun field => !isTable field.2).map fun (name, value) =>
    name ++ " = " ++ valueText value ++ "\n"

mutual

def tableText (path : String) : Json → String
  | .object fields => String.join (plainLines fields) ++ subtablesText path fields
  | _ => ""

def subtablesText (path : String) : List (String × Json) → String
  | [] => ""
  | (name, value) :: rest =>
      let inner := if path = "" then name else path ++ "." ++ name
      (if isTable value then "\n[" ++ inner ++ "]\n" ++ tableText inner value else "") ++
        subtablesText path rest

end

def render (document : Json) : String := tableText "" document

end EvmLedger.Toml
