/-
# EvmLedger.Fixture.Directory -- test cases in a directory

All documents under a directory whose names end in `.json` are run, entry after
entry in the order of the names, directories being searched where they come.
The first document that cannot be read, or that holds anything but cases, ends
the run, and so does a case that ends the whole program.
-/

import EvmLedger.Fixture.Report

namespace EvmLedger.Fixture

set_option autoImplicit false

open Vm (Schedule)

inductive Entry where
  /-- a file, with its text if that can be read -/
  | file (name : String) (text : Option String)
  /-- a directory, with its entries if they can be listed -/
  | directory (name : String) (entries : Option (List Entry))
  deriving Inhabited

structure Document where
  name : String
  text : Option String

/-- Whether a file holds cases: its name has something in front of `.json`. -/
def isDocumentName (name : String) : Bool :=
  match name.toList.reverse with
  | 'n' :: 'o' :: 's' :: 'j' :: '.' :: _ :: _ => true
  | _ => false

def insertByName {α : Type} (name : String) (a : α) : List (String × α) → List (String × α)
  | [] => [(name, a)]
  | (other, b) :: rest =>
      if other < name then (other, b) :: insertByName name a rest
      else (name, a) :: (other, b) :: rest

mutual

/-- The documents in an entry, in order. -/
def Entry.documents : Entry → List Document
  | .file name text => if isDocumentName name then [⟨name, text⟩] else []
  | .directory name none => [⟨name, none⟩]
  | .directory _ (some entries) => (documentsByName entries).flatMap (·.2)

/-- The documents in some entries, by the names of the entries. -/
def documentsByName : List Entry → List (String × List Document)
  | [] => []
  | .file name text :: rest =>
      insertByName name (Entry.file name text).documents (documentsByName rest)
  | .directory name entries :: rest =>
      insertByName name (Entry.directory name entries).documents (documentsByName rest)

end

inductive DirectoryError where
  /-- a file or directory cannot be read -/
  | unreadable
  /-- a document holds something else than cases -/
  | malformed
  /-- a case has ended the whole program -/
  | fatal
  deriving DecidableEq, Repr

def runDirectory (schedule : Schedule) (directory : Entry) : Except DirectoryError Stats :=
  directory.documents.foldlM (fun stats document =>
    match document.text with
    | none => .error .unreadable
    | some text =>
        match runDocument? schedule document.name text with
        | none => .error .malformed
        | some report => if report.isFatal then .error .fatal else .ok (stats.add report)) {}

end EvmLedger.Fixture
