/-
# EvmLedger.Toml.Table -- tables under construction

A document is built entry by entry and header by header, and no place may be
defined twice.  A table remembers how it came about: by a header of its own, as
the implied parent of one (`implied`), or as the parent of a dotted key
(`dotted`, which is also implied).

A dotted key leads through implied tables only, and the last of them must be
dotted itself.  A header leads through any tables and through the last item of a
list of tables; it may take over a table that so far was only implied by other
headers.
-/

import EvmLedger.Json.Basic

namespace EvmLedger.Toml

set_option autoImplicit false

/-- What stands under a key. -/
inductive Node where
  | value (json : Json)
  | table (implied dotted : Bool) (entries : List (String × Node))
  /-- a list of tables, the last one apart -/
  | tables (earlier : List (List (String × Node))) (last : List (String × Node))
  deriving Inhabited

/-- The entries of a table, in the order of definition. -/
abbrev Entries := List (String × Node)

namespace Entries

def put (key : String) (node : Node) : Entries → Entries
  | [] => [(key, node)]
  | (other, old) :: rest =>
      if key = other then (key, node) :: rest else (other, old) :: put key node rest

def define (key : String) (node : Node) (entries : Entries) : Option Entries :=
  match entries.lookup key with
  | some _ => none
  | none => some (entries.put key node)

/-- Defines a key inside the dotted tables that a path leads to. -/
def defineDotted (path : List String) (key : String) (node : Node) (entries : Entries) :
    Option Entries :=
  match path with
  | [] => entries.define key node
  | step :: path =>
      match entries.lookup step with
      | none => do
          let inner ← defineDotted path key node []
          some (entries.put step (.table true true inner))
      | some (.table implied dotted old) =>
          if !implied ∨ (path.isEmpty ∧ !dotted) then none
          else do
            let inner ← defineDotted path key node old
            some (entries.put step (.table implied dotted inner))
      | some (.tables earlier last) =>
          if path.isEmpty then none
          else do
            let inner ← defineDotted path key node last
            some (entries.put step (.tables earlier inner))
      | some (.value _) => none

/-- Changes the table that a header leads to, implying tables on the way. -/
def modify (path : List String) (f : Entries → Option Entries) (entries : Entries) :
    Option Entries :=
  match path with
  | [] => f entries
  | step :: path =>
      match entries.lookup step with
      | none => do
          let inner ← modify path f []
          some (entries.put step (.table true false inner))
      | some (.table implied dotted old) => do
          let inner ← modify path f old
          some (entries.put step (.table implied dotted inner))
      | some (.tables earlier last) => do
          let inner ← modify path f last
          some (entries.put step (.tables earlier inner))
      | some (.value _) => none

/-- Opens a table under a key. -/
def openTable (key : String) (entries : Entries) : Option Entries :=
  match entries.lookup key with
  | none => some (entries.put key (.table false false []))
  | some (.table true false old) => some (entries.put key (.table false false old))
  | some _ => none

/-- Opens the next table of a list under a key. -/
def openItem (key : String) (entries : Entries) : Option Entries :=
  match entries.lookup key with
  | none => some (entries.put key (.tables [] []))
  | some (.tables earlier last) => some (entries.put key (.tables (earlier ++ [last]) []))
  | some _ => none

end Entries

mutual

def Node.toJson : Node → Json
  | .value json => json
  | .table _ _ entries => .object (fieldsJson entries)
  | .tables earlier last => .array (objectsJson earlier ++ [.object (fieldsJson last)])

def fieldsJson : List (String × Node) → List (String × Json)
  | [] => []
  | (key, node) :: rest => (key, node.toJson) :: fieldsJson rest

def objectsJson : List (List (String × Node)) → List Json
  | [] => []
  | entries :: rest => .object (fieldsJson entries) :: objectsJson rest

end

end EvmLedger.Toml
