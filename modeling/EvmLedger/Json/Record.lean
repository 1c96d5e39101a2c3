/-
# EvmLedger.Json.Record -- records read from JSON

A record with known field names is written as an object, or as an array of its
values in the order of the names.  Unknown names are ignored; a known name must
not be repeated.  Whether an array may be longer than the list of names, the
surplus being ignored, depends on the kind of file.

What a missing field means is for the reader of the field to say: it is
`required`, it has a `defaulted` value, or it is `optional`.  An optional field
may also be null, but cannot be left off the end of an array.
-/

import EvmLedger.Json.Basic

namespace EvmLedger.Json

set_option autoImplicit false

/-- The fields of a record by name. -/
structure Record where
  fields : List (String × Json)
  /-- whether the record was written as an array -/
  listed : Bool

namespace Record

/-- The record in a JSON value.  `surplus` tells whether an array may be too long. -/
def ofJson? (surplus : Bool) (names : List String) : Json → Option Record
  | .object fields =>
      let known := fields.filter fun field => names.contains field.1
      if (known.map Prod.fst).Nodup then some ⟨known, false⟩ else none
  | .array items =>
      if surplus ∨ items.length ≤ names.length then some ⟨names.zip items, true⟩ else none
  | _ => none

def get? (r : Record) (name : String) : Option Json := r.fields.lookup name

def required {α : Type} (r : Record) (name : String) (read : Json → Option α) : Option α := do
  read (← r.get? name)

/-- A field with a value for its absence. -/
def defaulted {α : Type} (r : Record) (name : String) (read : Json → Option α) (absent : α) :
    Option α :=
  match r.get? name with
  | some value => read value
  | none => some absent

/-- A field that may be null or absent. -/
def optional {α : Type} (r : Record) (name : String) (read : Json → Option α) :
    Option (Option α) :=
  match r.get? name with
  | some .null => some none
  | some value => (read value).map some
  | none => if r.listed then none else some none

end Record

end EvmLedger.Json
