/-
# EvmLedger.Vm.Schedule -- the price list

All prices are 64-bit quantities.  Costs that grow with an operand stop at the
greatest quantity instead of starting over, so that what is dear stays dear; a
power is the exception and has no price at all when the sum is no quantity.  The
price of memory is exact: a linear and a quadratic part in the number of words.
-/

import EvmLedger.Vm.Instruction
import EvmLedger.Word.Arithmetic

namespace EvmLedger.Vm

set_option autoImplicit false

open Quantity (addSat mulSat wordsFor)

/-- The prices of the cost classes. -/
structure TierPrices where
  zero : Nat := 0
  base : Nat := 2
  veryLow : Nat := 3
  low : Nat := 5
  mid : Nat := 8
  high : Nat := 10
  ext : Nat := 20
  deriving DecidableEq, Repr

/-- The price list; the Frontier prices unless said otherwise. -/
structure Schedule where
  tiers : TierPrices := {}
  /-- a power -/
  exp : Nat := 10
  /-- each byte of the exponent of a power -/
  expByte : Nat := 10
  /-- a digest -/
  sha3 : Nat := 30
  /-- each word of a digest's input -/
  sha3Word : Nat := 6
  /-- reading a slot -/
  sload : Nat := 50
  /-- writing a zero slot to something else -/
  sstoreSet : Nat := 20000
  /-- any other write to a slot -/
  sstoreReset : Nat := 5000
  /-- given back for writing zero to a slot -/
  sstoreRefund : Nat := 15000
  /-- passing a jump destination -/
  jumpDest : Nat := 1
  /-- a log entry -/
  log : Nat := 375
  /-- each topic of a log entry -/
  logTopic : Nat := 375
  /-- each byte of a log entry -/
  logData : Nat := 8
  /-- asking for the code hash of an account -/
  extCodeHash : Nat := 400
  /-- a call -/
  call : Nat := 40
  /-- on top of a call that transfers value -/
  callValueTransfer : Nat := 9000
  /-- on top of a transfer to an account without code and balance -/
  callNewAccount : Nat := 25000
  /-- gas given to a callee that receives value -/
  callStipend : Nat := 2300
  /-- a creation -/
  create : Nat := 32000
  /-- each byte of deployed code -/
  createData : Nat := 200
  /-- each copied word -/
  copy : Nat := 3
  /-- each word of memory -/
  memory : Nat := 3
  /-- the divisor of the quadratic price of memory -/
  quadCoeffDiv : Nat := 512
  /-- a self-destruction -/
  suicide : Nat := 0
  /-- given back for the first self-destruction of an account -/
  suicideRefund : Nat := 24000
  /-- a transaction that calls -/
  tx : Nat := 21000
  /-- a transaction that creates -/
  txCreate : Nat := 53000
  /-- each zero byte of a transaction's data -/
  txDataZero : Nat := 4
  /-- each other byte of a transaction's data -/
  txDataNonZero : Nat := 68
  /-- a callee gets at most all but one part in so many -/
  subGasCapDivisor : Nat := 64
  deriving DecidableEq, Repr

namespace Schedule

/-- The price list of the first main network. -/
def frontier : Schedule := {}

/-- The price of a cost class, unless it depends on operands. -/
def tier? (s : Schedule) : Tier → Option Nat
  | .zero => some s.tiers.zero
  | .base => some s.tiers.base
  | .veryLow => some s.tiers.veryLow
  | .low => some s.tiers.low
  | .mid => some s.tiers.mid
  | .high => some s.tiers.high
  | .ext => some s.tiers.ext
  | .special => none

/-- The price of a memory of so many words. -/
def memoryCost (s : Schedule) (words : Nat) : Nat :=
  s.memory * words + words * words / max s.quadCoeffDiv 1

def copyCost (s : Schedule) (size : Nat) : Nat :=
  mulSat s.copy (wordsFor size)

def sha3Cost (s : Schedule) (size : Nat) : Nat :=
  addSat s.sha3 (mulSat s.sha3Word (wordsFor size))

/-- The price of a power, if it is a quantity. -/
def expCost? (s : Schedule) (exponent : Word) : Option Nat := do
  Quantity.add? s.exp (← Quantity.mul? s.expByte exponent.significantBytes)

def logCost (s : Schedule) (topics size : Nat) : Nat :=
  addSat (addSat s.log (mulSat s.logTopic topics)) (mulSat s.logData size)

/-- The price of a write to a slot, and what is given back for it. -/
def sstoreCost (s : Schedule) (current new : Word) : Nat × Nat :=
  let cost := if current = 0 ∧ new ≠ 0 then s.sstoreSet else s.sstoreReset
  let refund := if current ≠ 0 ∧ new = 0 then s.sstoreRefund else 0
  (cost, refund)

/-- The gas a callee gets: what was asked for, but never all that is available. -/
def callGasCap (s : Schedule) (available : Nat) (requested : Word) : Nat :=
  let cap := available - available / max s.subGasCapDivisor 1
  match requested.narrow? with
  | some requested => min requested cap
  | none => cap

/-- The gas that a callee gets on top for the value it receives. -/
def stipend (s : Schedule) (value : Word) : Nat :=
  if value = 0 then 0 else s.callStipend

def createCost (s : Schedule) (kind : CreateKind) (size : Nat) : Nat :=
  match kind with
  | .create => s.create
  | .create2 => addSat s.create (mulSat s.sha3Word (wordsFor size))

/-- The price of deploying so many bytes of code. -/
def depositCost (s : Schedule) (size : Nat) : Nat :=
  mulSat s.createData size

/-- What a transaction pays before anything runs. -/
def intrinsicGas (s : Schedule) (data : Bytes) (isCreate : Bool) : Nat :=
  data.foldl (fun gas byte => addSat gas (if byte = 0 then s.txDataZero else s.txDataNonZero))
    (if isCreate then s.txCreate else s.tx)

end Schedule

/-- The end of a memory range given by two words.  An empty range ends at zero wherever it starts;
a range whose end is not a 64-bit offset can never be paid for. -/
def memoryExtent? (offset size : Word) : Option Nat :=
  if size = 0 then some 0
  else do
    let offset ← offset.narrow?
    let size ← size.narrow?
    Quantity.add? offset size

namespace Gas

/-- What is left after paying, if there is enough. -/
def pay? (left amount : Nat) : Option Nat :=
  if left < amount then none else some (left - amount)

def takeBack (left amount : Nat) : Nat :=
  addSat left amount

/-- Pays for memory to grow from `words` words so that it covers `extent` bytes.  Gives the gas
left and the new number of words. -/
def payMemory? (schedule : Schedule) (left words extent : Nat) : Option (Nat × Nat) :=
  let needed := wordsFor extent
  if needed ≤ words then some (left, words)
  else do
    let left ← pay? left (schedule.memoryCost needed - schedule.memoryCost words)
    some (left, needed)

end Gas

end EvmLedger.Vm
