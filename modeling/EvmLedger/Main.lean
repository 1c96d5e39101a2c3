/-
# EvmLedger.Main -- the program

Looks at the files a command needs to see, lets the command respond, writes the
file it wants to be written, and prints.  Words that make no sense end with the
exit code 2, a failing command with 1, and one whose arithmetic gave out with 101
and without an answer.
-/

import EvmLedger.CommandLine.Respond

namespace EvmLedger.CommandLine

set_option autoImplicit false

/-! ## Files -/

/-- What a path leads to. -/
def lookAt (path : String) : IO FileState := do
  let place := (IO.FS.DirEntry.mk "." path).path
  if ← place.pathExists then
    try return .text (← IO.FS.readFile place)
    catch _ => return .unreadable
  else return .missing

/-- An entry of a directory with all below it; of files only documents are read. -/
partial def readEntry (entry : IO.FS.DirEntry) : IO Fixture.Entry := do
  let name := entry.fileName
  if ← entry.path.isDir then
    try
      let entries ← (← entry.path.readDir).toList.mapM readEntry
      return .directory name (some entries)
    catch _ => return .directory name none
  else if Fixture.isDocumentName name then
    try return .file name (some (← IO.FS.readFile entry.path))
    catch _ => return .file name none
  else return .file name none

def readDirectory (path : String) : IO (Option Fixture.Entry) := do
  let entry := IO.FS.DirEntry.mk "." path
  if ← entry.path.isDir then return some (← readEntry entry) else return none

/-- Writes a file with its directories; tells whether that worked. -/
def writeFile (save : Save) : IO Bool := do
  try
    let place := (IO.FS.DirEntry.mk "." save.path).path
    if let some parent := place.parent then IO.FS.createDirAll parent
    IO.FS.writeFile place save.content
    return true
  catch _ => return false

/-! ## Answers -/

def synopsis : String :=
  "Usage: keel [OPTIONS] <run|tx|rlp|address|account-id|fixtures|config>"

/-- Prints an answer and gives the exit code. -/
def print (json : Bool) (response : Response) : IO UInt32 := do
  IO.print response.output
  match response.failure with
  | none => return 0
  | some cause =>
      if cause.isFatal then return 101
      if json then IO.println (Response.errorLine cause)
      else IO.eprintln ("Error: " ++ cause.message)
      return 1

def perform (i : Invocation) : IO UInt32 := do
  match i.configPath (← IO.getEnv "HOME") with
  | none => print i.json (.failed .noHome)
  | some path =>
      let file ← lookAt path
      let directory ← match i.directory? with
        | some directory => readDirectory directory
        | none => pure none
      let response := i.respond path file directory
      match response.save with
      | none => print i.json response
      | some save =>
          if ← writeFile save then print i.json response else print i.json .unsaved

def start (words : List String) : IO UInt32 := do
  match Invocation.parse words with
  | .error .usage =>
      IO.eprintln synopsis
      return 2
  | .error .help =>
      IO.println synopsis
      return 0
  | .error .version =>
      IO.println "keel 0.1.0"
      return 0
  | .ok i => perform i

end EvmLedger.CommandLine

def main (words : List String) : IO UInt32 :=
  EvmLedger.CommandLine.start words
