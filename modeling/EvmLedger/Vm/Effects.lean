/-
# EvmLedger.Vm.Effects -- what a frame leaves behind

The writes of a frame and of those of its children that succeeded: slots,
balances, code and nonces as maps from places to last values, log entries in the
order they were made, the accounts that destroyed themselves, and the gas to be
given back.

`merge` folds the effects of a child into those of its parent: where both wrote
the same place the child's value stands, the child's log entries follow, and the
refunds add up without leaving the 64-bit range.
-/

import EvmLedger.Address
import EvmLedger.Hash
import Std.Data.ExtTreeMap
import Std.Data.ExtTreeSet

namespace EvmLedger.Vm

set_option autoImplicit false

structure Log where
  /-- the contract that made it -/
  address : Address
  /-- at most four words to search by -/
  topics : List Hash
  data : Bytes
  deriving DecidableEq, Repr

/-- A storage slot of a contract.  Slots are ordered by contract, then by key. -/
structure Slot where
  contract : Address
  key : Word
  deriving DecidableEq, Repr

namespace Slot

instance : Ord Slot := ⟨compareLex (compareOn contract) (compareOn key)⟩

instance : Std.TransOrd Slot :=
  inferInstanceAs (Std.TransCmp (compareLex (compareOn contract) (compareOn key)))

instance : Std.LawfulEqOrd Slot where
  compare_self {s} := by
    show compareLex (compareOn contract) (compareOn key) s s = .eq
    simp [compareLex, compareOn]
  eq_of_compare {s t} h := by
    have parts : (compare s.contract t.contract).then (compare s.key t.key) = .eq := h
    rw [Ordering.then_eq_eq] at parts
    cases s; cases t
    simp only [Std.compare_eq_iff_eq] at parts
    rw [parts.1, parts.2]

end Slot

/-- The effects of a frame and of its children that succeeded. -/
structure Effects where
  /-- the last value written to each slot -/
  storage : Std.ExtTreeMap Slot Word := ∅
  /-- the last balance of each account that paid or was paid -/
  balances : Std.ExtTreeMap Address Word := ∅
  /-- the code of each contract created -/
  codes : Std.ExtTreeMap Address Bytes := ∅
  /-- the last nonce of each creator -/
  nonces : Std.ExtTreeMap Address Nat := ∅
  /-- the log entries in the order they were made -/
  logs : Array Log := #[]
  /-- the accounts that destroyed themselves -/
  suicides : Std.ExtTreeSet Address := ∅
  /-- gas to be given back when the transaction ends -/
  refund : Nat := 0
  deriving DecidableEq

namespace Effects

def empty : Effects := {}

/-- The effects of a parent followed by those of a child. -/
def merge (parent child : Effects) : Effects where
  storage := parent.storage ∪ child.storage
  balances := parent.balances ∪ child.balances
  codes := parent.codes ∪ child.codes
  nonces := parent.nonces ∪ child.nonces
  logs := parent.logs ++ child.logs
  suicides := parent.suicides ∪ child.suicides
  refund := Quantity.addSat parent.refund child.refund

def isEmpty (e : Effects) : Bool :=
  e.storage.isEmpty && e.balances.isEmpty && e.codes.isEmpty && e.nonces.isEmpty &&
    e.logs.isEmpty && e.suicides.isEmpty && e.refund == 0

end Effects

end EvmLedger.Vm
