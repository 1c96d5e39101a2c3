/-
# EvmLedger.Json.Basic -- JSON values

Numbers are whole where they can be: a natural number below `2 ^ 64` or a
negative one not below `-2 ^ 63`; all others are doubles.  The fields of an
object are kept as they were written, repetitions included; `sorted` orders them
by name and keeps the last one of each name.
-/

import EvmLedger.Quantity

namespace EvmLedger

set_option autoImplicit false

inductive Json where
  | null
  | bool (value : Bool)
  /-- a natural number below `2 ^ 64` -/
  | natural (value : Nat)
  /-- the negation of a positive number of at most `2 ^ 63` -/
  | negative (magnitude : Nat)
  | float (value : Float)
  | string (text : String)
  | array (items : List Json)
  | object (fields : List (String × Json))
  deriving Repr, Inhabited

namespace Json

/-! ## Fields in order -/

/-- Puts a field in its place by name, instead of one with the same name. -/
def insertField (name : String) (value : Json) :
    List (String × Json) → List (String × Json)
  | [] => [(name, value)]
  | (other, old) :: rest =>
      if name = other then (name, value) :: rest
      else if name < other then (name, value) :: (other, old) :: rest
      else (other, old) :: insertField name value rest

mutual

/-- The value with the fields of all objects ordered by name, the last one of each name. -/
def sorted : Json → Json
  | .array items => .array (sortedItems items)
  | .object fields =>
      .object ((sortedFields fields).foldl (fun done (name, value) => insertField name value done) [])
  | value => value

def sortedItems : List Json → List Json
  | [] => []
  | item :: rest => sorted item :: sortedItems rest

/-- The fields of an object in their old order, each value sorted. -/
def sortedFields : List (String × Json) → List (String × Json)
  | [] => []
  | (name, value) :: rest => (name, sorted value) :: sortedFields rest

end

/-! ## Views -/

/-- The field of an object with a name, the last one if there are several. -/
def field? (name : String) : Json → Option Json
  | .object fields =>
      fields.foldl (fun found (other, value) => if other = name then some value else found) none
  | _ => none

def text? : Json → Option String
  | .string text => some text
  | _ => none

/-- A natural number below `2 ^ 64`. -/
def natural? : Json → Option Nat
  | .natural n => some n
  | _ => none

def bool? : Json → Option Bool
  | .bool b => some b
  | _ => none

def items? : Json → Option (List Json)
  | .array items => some items
  | _ => none

def fields? : Json → Option (List (String × Json))
  | .object fields => some fields
  | _ => none

end Json

end EvmLedger
