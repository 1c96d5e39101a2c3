/-
# EvmLedger.Fixture.Report -- running test cases

The expectations of a case are checked in a fixed order: how the run ended, the
gas left, the returned data, the slots by contract and key, the number of log
entries.  The first one that is not met is the reason of the failure.

Cases of one document are run in the order of their names.  Statistics add up
the reports of many documents.
-/

import EvmLedger.Decimal
import EvmLedger.Fixture
import EvmLedger.Json.Reader
import EvmLedger.Vm.Machine

namespace EvmLedger

set_option autoImplicit false

open Vm (Host Outcome Schedule)

namespace Fixture

/-! ## Checking -/

/-- Why a case fails. -/
inductive Failure where
  | status (expected got : String)
  | gasLeft (expected got : Nat)
  | output (expected got : Bytes)
  | slot (contract : Address) (key expected got : Word)
  | logs (expected got : Nat)
  /-- the frame could not be started -/
  | vm (cause : Vm.Refusal)
  deriving DecidableEq, Repr

/-- Whether a failure ends the whole program and not just the case. -/
def Failure.isFatal : Failure → Bool
  | .vm .unpriced => true
  | _ => false

def mismatch (what expected got : String) : String :=
  "Assertion failed: " ++ what ++ ": expected " ++ expected ++ ", got " ++ got

def Failure.message : Failure → String
  | .status expected got => mismatch "status" expected got
  | .gasLeft expected got => mismatch "gas left" (toString expected) (toString got)
  | .output expected got => mismatch "output" (Hex.encode expected) (Hex.encode got)
  | .slot contract key expected got =>
      mismatch ("storage " ++ contract.toHex ++ "[" ++ key.toHex ++ "]") expected.toHex got.toHex
  | .logs expected got => mismatch "logs" (toString expected) (toString got)
  | .vm cause => "VM error: " ++ cause.message

/-- Fails unless a value is the expected one. -/
def meet {α : Type} [DecidableEq α] (failure : α → α → Failure) (expected got : α) :
    Except Failure Unit :=
  if expected = got then .ok () else .error (failure expected got)

/-- Checks a value only if something is expected of it. -/
def meetIf {α : Type} [DecidableEq α] (failure : α → α → Failure) (expected : Option α) (got : α) :
    Except Failure Unit :=
  match expected with
  | some expected => meet failure expected got
  | none => .ok ()

def slotAfter (host : Host) (outcome : Outcome) (contract : Address) (key : Word) : Word :=
  outcome.effects.storage[Vm.Slot.mk contract key]?.getD (host.slot contract key)

/-- Compares a run with what was expected of it. -/
def Expectation.check (e : Expectation) (host : Host) (outcome : Outcome) :
    Except Failure Unit := do
  meet .status e.status outcome.result.status
  meetIf .gasLeft e.gasLeft outcome.result.gasLeft
  meetIf .output e.output outcome.result.output
  e.storage.toList.forM fun (contract, slots) =>
    slots.toList.forM fun (key, value) =>
      meet (.slot contract key) value (slotAfter host outcome contract key)
  meetIf .logs e.logs outcome.effects.logs.size

def check (schedule : Schedule) (f : Fixture) : Except Failure Unit := do
  let host := f.pre.host
  let outcome ← (Vm.execute { schedule := schedule, env := f.env, host := host } f.params).mapError
    .vm
  f.expect.check host outcome

/-! ## Documents -/

/-- The results of a document. -/
structure Report where
  file : String
  /-- the names of the cases that pass -/
  passed : List String
  /-- the names of the others, with the reasons -/
  failed : List (String × String)
  /-- a case has ended the whole program -/
  isFatal : Bool := false
  deriving DecidableEq, Repr

def Report.total (r : Report) : Nat := r.passed.length + r.failed.length

def Report.add (r : Report) (name : String) : Except Failure Unit → Report
  | .ok () => { r with passed := r.passed ++ [name] }
  | .error failure =>
      { r with
        failed := r.failed ++ [(name, failure.message)]
        isFatal := r.isFatal || failure.isFatal }

/-- Runs the cases of a document, if it holds nothing but cases. -/
def runDocument? (schedule : Schedule) (file text : String) : Option Report := do
  let cases ← readMap some ofJson? (← Json.parse text)
  some (cases.foldl (fun report name f => report.add name (f.check schedule)) ⟨file, [], [], false⟩)

/-! ## Statistics -/

/-- The results of many documents. -/
structure Stats where
  passed : Nat := 0
  /-- the cases that fail, by document and name, with the reasons -/
  failures : List (String × String) := []
  deriving DecidableEq, Repr

namespace Stats

def failed (s : Stats) : Nat := s.failures.length

def total (s : Stats) : Nat := s.passed + s.failed

def add (s : Stats) (r : Report) : Stats where
  passed := s.passed + r.passed.length
  failures := s.failures ++ r.failed.map fun (name, reason) => (r.file ++ "::" ++ name, reason)

/-- The share of the cases that pass, in percent; all of none pass. -/
def passRate (s : Stats) : Float :=
  if s.total = 0 then 100 else s.passed.toFloat / s.total.toFloat * 100

/-- The summary for people, with a line for every case that fails.  No time is taken. -/
def summary (s : Stats) : String :=
  let lines :=
    ["Total:     " ++ toString s.total,
     "Passed:    " ++ toString s.passed,
     "Failed:    " ++ toString s.failed,
     "Pass Rate: " ++ Decimal.fixed 2 s.passRate ++ "%",
     "Duration:  " ++ Decimal.pointed 2 0 ++ "s"] ++
    s.failures.map fun (name, reason) => "  - " ++ name ++ ": " ++ reason
  String.intercalate "\n" lines

end Stats

end Fixture

end EvmLedger
