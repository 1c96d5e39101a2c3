/-
# EvmLedger.Vm.Step -- the meaning of every instruction

An instruction is a computation on the running frame and the overlay that may
halt the frame; a halt keeps all writes made before it, and it is for the
machine to keep or undo them.  Before its own work every instruction is checked
for a known byte, for operands and for room on the stack, in that order, and
pays the price of its cost class.

Calls and creations do not run the other frame themselves.  They end with the
parameters of that frame and with what is to be done with its result.
-/

import EvmLedger.ContractAddress
import EvmLedger.Vm.Frame

namespace EvmLedger.Vm

set_option autoImplicit false

open Crypto (keccak)

/-- What stays the same during a run. -/
structure Context where
  schedule : Schedule := .frontier
  env : Env := {}
  /-- the deepest nesting of frames -/
  maxDepth : Nat := 1024
  host : Host

/-- The running frame, the scopes, and the events of the current instruction, last one first. -/
structure Exec where
  frame : Frame
  overlay : Overlay
  events : List Event

/-- A piece of an instruction: it changes the state and may halt the frame. -/
abbrev Step := EStateM Halt Exec

/-- What follows an instruction. -/
inductive Flow where
  /-- the next instruction -/
  | next
  /-- another frame -/
  | enter (params : Params) (continuation : Continuation)

namespace Step

/-! ## Access to the state -/

def modifyFrame (f : Frame → Frame) : Step Unit :=
  modify fun s => { s with frame := f s.frame }

def modifyOverlay (f : Overlay → Overlay) : Step Unit :=
  modify fun s => { s with overlay := f s.overlay }

def report (event : Event) : Step Unit :=
  modify fun s => { s with events := event :: s.events }

def trap {α : Type} (cause : Trap) : Step α :=
  throw (.trap cause)

def require (condition : Prop) [Decidable condition] (cause : Trap) : Step Unit :=
  if condition then return () else trap cause

def params : Step Params :=
  return (← get).frame.params

/-! ## Stack -/

def pop : Step Word := do
  match (← get).frame.stack.pop with
  | .ok (w, stack) =>
      modifyFrame fun f => { f with stack := stack }
      return w
  | .error cause => trap cause

def push (w : Word) : Step Unit := do
  match (← get).frame.stack.push w with
  | .ok stack => modifyFrame fun f => { f with stack := stack }
  | .error cause => trap cause

def unary (f : Word → Word) : Step Unit := do
  let a ← pop
  push (f a)

/-- Replaces two words, the first being the top. -/
def binary (f : Word → Word → Word) : Step Unit := do
  let a ← pop
  let b ← pop
  push (f a b)

def ternary (f : Word → Word → Word → Word) : Step Unit := do
  let a ← pop
  let b ← pop
  let c ← pop
  push (f a b c)

/-- Replaces two words by the outcome of a comparison. -/
def compare (f : Word → Word → Bool) : Step Unit :=
  binary fun a b => .ofBool (f a b)

def popMany : Nat → Step (List Word)
  | 0 => return []
  | count + 1 => do
      let w ← pop
      let rest ← popMany count
      return w :: rest

/-! ## Gas and memory -/

def pay (amount : Nat) : Step Unit := do
  match Gas.pay? (← get).frame.gas amount with
  | some left => modifyFrame fun f => { f with gas := left }
  | none => throw .outOfGas

/-- Pays for a power.  Where the price list has no price for it, nothing that follows counts
(`executeObserved`); the frame halts as if it could not pay. -/
def payPower (schedule : Schedule) (exponent : Word) : Step Unit := do
  match schedule.expCost? exponent with
  | some cost => pay cost
  | none =>
      report .unpriced
      throw .outOfGas

def takeBack (amount : Nat) : Step Unit :=
  modifyFrame fun f => { f with gas := Gas.takeBack f.gas amount }

/-- Halts unless the frame may change state. -/
def requireMutable : Step Unit := do
  require ((← params).isStatic = false) .mutableCallInStaticContext

/-- The end of a memory range, which must be payable. -/
def extent (offset size : Word) : Step Nat :=
  match memoryExtent? offset size with
  | some stop => return stop
  | none => throw .outOfGas

/-- Pays for memory up to `stop` and grows it. -/
def growMemory (schedule : Schedule) (stop : Nat) : Step Unit := do
  if stop ≠ 0 then
    let s ← get
    match Gas.payMemory? schedule s.frame.gas s.frame.memory.words stop with
    | some (left, words) =>
        report (.memoryPaid s.frame.depth (s.frame.gas - left))
        modifyFrame fun f => { f with gas := left, memory := f.memory.expand (words * 32) }
    | none => throw .outOfGas

/-- Pays for a memory range and gives it as offset and size; an empty range is at zero. -/
def touchMemory (schedule : Schedule) (offset size : Word) : Step (Nat × Nat) := do
  let stop ← extent offset size
  if stop = 0 then return (0, 0)
  growMemory schedule stop
  return (offset.low, size.low)

def modifyMemory (f : Memory → Memory) : Step Unit :=
  modifyFrame fun frame => { frame with memory := f frame.memory }

def readMemory (offset size : Nat) : Step Bytes :=
  return (← get).frame.memory.readSlice offset size

/-- Copies from a source to a memory range that is paid for first. -/
def copyToMemory (schedule : Schedule) (target offset size : Word) (source : Step Bytes) :
    Step Unit := do
  let (target, size) ← touchMemory schedule target size
  pay (schedule.copyCost size)
  let bytes ← source
  modifyMemory fun m => m.copy target offset.clamp size bytes

/-! ## Accounts -/

def balance (host : Host) (address : Address) : Step Word :=
  return (← get).overlay.balance host address

/-- The code of an account; a question to the host is reported. -/
def code (host : Host) (address : Address) : Step Bytes := do
  let overlay := (← get).overlay
  if (overlay.code? address).isNone then report (.codeLookup address)
  return overlay.code host address

/-- Changes the overlay, or halts when the change is refused. -/
def tryOverlay (change : Overlay → Except Trap Overlay) : Step Unit := do
  match change (← get).overlay with
  | .ok overlay => modifyOverlay fun _ => overlay
  | .error cause => trap cause

/-! ## Control -/

def jump (target : Word) : Step Unit := do
  match (← get).frame.jumps.target? target with
  | some pc => modifyFrame fun f => { f with pc := pc }
  | none => trap .invalidJump

/-- Pushes the bytes after the instruction, reading zeros past the end of the code. -/
def pushData (count : Nat) : Step Unit := do
  let frame := (← get).frame
  let part := (frame.code.extract frame.pc (frame.pc + count)).toList
  push (Word.ofBytes (part ++ List.replicate (count - part.length) 0))
  modifyFrame fun f => { f with pc := f.pc + count }

/-- Takes a memory range from the stack and reads it. -/
def outputData (schedule : Schedule) : Step Bytes := do
  let offset ← pop
  let size ← pop
  let (offset, size) ← touchMemory schedule offset size
  readMemory offset size

/-! ## Logs, calls and creations -/

def log (schedule : Schedule) (count : Nat) : Step Unit := do
  requireMutable
  let offset ← pop
  let size ← pop
  let topics ← popMany count
  let (offset, size) ← touchMemory schedule offset size
  pay (schedule.logCost count size)
  let data ← readMemory offset size
  let address := (← params).address
  modifyOverlay (·.addLog ⟨address, topics.map Hash.ofWord, data⟩)

/-- Whether a transfer would be the first sign of life of an account.  Only the plain call asks. -/
def opensAccount (host : Host) (kind : CallKind) (target : Address) : Step Bool := do
  if kind = .call then
    let code ← code host target
    let funds ← balance host target
    return code.isEmpty && funds == 0
  else return false

/-- What a call costs in itself: more with value, and still more to an account that is not
there yet. -/
def callCost (ctx : Context) (kind : CallKind) (target : Address) (value : Word) : Step Nat := do
  if value = 0 then return ctx.schedule.call
  else
    let cost := Quantity.addSat ctx.schedule.call ctx.schedule.callValueTransfer
    if ← opensAccount ctx.host kind target then
      return Quantity.addSat cost ctx.schedule.callNewAccount
    else return cost

/-- Whether a frame at `depth` acting for `address` may start another one that moves `value`. -/
def mayEnter (ctx : Context) (depth : Nat) (address : Address) (value : Word) : Step Bool := do
  let funds ← balance ctx.host address
  return depth < ctx.maxDepth ∧ value ≤ funds

/-- Sets gas aside for another frame, as much as was asked for and may be given away, and forgets
what the last call returned. -/
def forward (schedule : Schedule) (requested : Word) : Step Nat := do
  let forwarded := schedule.callGasCap (← get).frame.gas requested
  pay forwarded
  modifyFrame fun f => { f with returnData := [] }
  return forwarded

/-- Gives up on starting a frame: the gas comes back and the result is zero. -/
def giveUp (event : Event) (forwarded : Nat) : Step Flow := do
  report event
  takeBack forwarded
  push 0
  return .next

/-- The value that a call moves; two kinds of call have no operand for it. -/
def callValue (kind : CallKind) : Step Word :=
  if kind = .call ∨ kind = .callCode then pop else return 0

def call (ctx : Context) (kind : CallKind) : Step Flow := do
  let requested ← pop
  let target := Address.ofWord (← pop)
  let value ← callValue kind
  let inOffset ← pop
  let inSize ← pop
  let outOffset ← pop
  let outSize ← pop
  let self ← params
  require (¬(self.isStatic ∧ kind = .call ∧ value ≠ 0)) .mutableCallInStaticContext
  let inStop ← extent inOffset inSize
  let outStop ← extent outOffset outSize
  growMemory ctx.schedule (max inStop outStop)
  pay (← callCost ctx kind target value)
  let forwarded ← forward ctx.schedule requested
  let depth := (← get).frame.depth
  if ← mayEnter ctx depth self.address value then
    -- the bounds were paid for above, and an empty range reads as nothing wherever it starts
    let input ← readMemory inOffset.low inSize.low
    let code ← code ctx.host target
    let gas := Quantity.addSat forwarded (ctx.schedule.stipend value)
    return .enter (self.callee kind target value gas code input)
      (.call outOffset.low outSize.low)
  else giveUp (.callRejected depth target) forwarded

/-- Where a creation puts its contract; a creation without salt uses up a nonce. -/
def newAddress (host : Host) (kind : CreateKind) (creator : Address) (salt : Word)
    (initCode : Bytes) : Step Address := do
  match kind with
  | .create2 => return ContractAddress.salted creator salt initCode
  | .create =>
      let nonce := (← get).overlay.nonce host creator
      modifyOverlay (·.incrementNonce host creator)
      return ContractAddress.legacy creator (Word.ofNat nonce)

def createSalt (kind : CreateKind) : Step Word :=
  if kind = .create2 then pop else return 0

def create (ctx : Context) (kind : CreateKind) : Step Flow := do
  requireMutable
  let value ← pop
  let offset ← pop
  let size ← pop
  let salt ← createSalt kind
  let (offset, size) ← touchMemory ctx.schedule offset size
  pay (ctx.schedule.createCost kind size)
  let initCode ← readMemory offset size
  let forwarded ← forward ctx.schedule Word.maximum
  let self ← params
  let depth := (← get).frame.depth
  if ← mayEnter ctx depth self.address value then
    let address ← newAddress ctx.host kind self.address salt initCode
    return .enter (self.creation kind address value forwarded initCode) (.create address)
  else giveUp (.createRejected depth self.address) forwarded

/-- Hands the balance to a beneficiary and ends the frame. -/
def selfDestruct (ctx : Context) : Step Unit := do
  requireMutable
  let beneficiary := Address.ofWord (← pop)
  pay ctx.schedule.suicide
  let address := (← params).address
  modifyOverlay (·.refundSuicide address ctx.schedule.suicideRefund)
  tryOverlay (·.handOver ctx.host address beneficiary)
  modifyOverlay (·.suicide address)
  report (.selfDestruct (← get).frame.depth address beneficiary)
  throw .stop

/-- Where a range starts, if it ends within so many bytes. -/
def rangeStart? (available : Nat) (offset size : Word) : Option Nat := do
  let start ← offset.narrow?
  let stop ← Quantity.add? start (← size.narrow?)
  if stop ≤ available then some start else none

/-- Copies from the return data, all of which must be there. -/
def copyReturnData (schedule : Schedule) : Step Unit := do
  let target ← pop
  let offset ← pop
  let size ← pop
  let data := (← get).frame.returnData
  match rangeStart? data.length offset size with
  | none => trap .returnDataOutOfBounds
  | some start =>
      let (target, size) ← touchMemory schedule target size
      pay (schedule.copyCost size)
      modifyMemory fun m => m.writeSlice target ((data.drop start).take size)

/-- The word of call data from an offset on; positions past the end read as zero, and an offset that
is no quantity is past every end. -/
def callDataWord (data : Bytes) (offset : Word) : Word :=
  match offset.narrow? with
  | some offset => Word.ofBytes (data.window offset 32)
  | none => 0

/-- Writes a slot and records what is given back for it. -/
def storeSlot (ctx : Context) : Step Unit := do
  requireMutable
  let key ← pop
  let value ← pop
  let address := (← params).address
  let current := (← get).overlay.storage ctx.host address key
  let (cost, refund) := ctx.schedule.sstoreCost current value
  pay cost
  modifyOverlay fun o => (o.refundIf (0 < refund) refund).setStorage address key value

/-! ## Instructions -/

/-- An instruction that does not start a frame. -/
def next (work : Step Unit) : Step Flow := do
  work
  return .next

/-- The work of an instruction; `pc` is its own offset. -/
def body (ctx : Context) (pc : Nat) : Instruction → Step Flow
  | .stop => next (throw .stop)
  | .add => next (binary (· + ·))
  | .mul => next (binary (· * ·))
  | .sub => next (binary (· - ·))
  | .div => next (binary Word.div)
  | .sdiv => next (binary Word.sdiv)
  | .mod => next (binary Word.rem)
  | .smod => next (binary Word.smod)
  | .addmod => next (ternary Word.addmod)
  | .mulmod => next (ternary Word.mulmod)
  | .exp => next do
      let base ← pop
      let exponent ← pop
      payPower ctx.schedule exponent
      push (base.exp exponent)
  | .signExtend => next (binary Word.signExtend)
  | .lt => next (compare fun a b => a < b)
  | .gt => next (compare fun a b => b < a)
  | .slt => next (compare Word.slt)
  | .sgt => next (compare Word.sgt)
  | .eq => next (compare fun a b => a == b)
  | .isZero => next (unary fun a => .ofBool (a == 0))
  | .and => next (binary (· &&& ·))
  | .or => next (binary (· ||| ·))
  | .xor => next (binary (· ^^^ ·))
  | .not => next (unary (~~~ ·))
  | .byte => next (binary Word.byteAt)
  | .shl => next (binary Word.shl)
  | .shr => next (binary Word.shr)
  | .sar => next (binary Word.sar)
  | .sha3 => next do
      let offset ← pop
      let size ← pop
      let (offset, size) ← touchMemory ctx.schedule offset size
      pay (ctx.schedule.sha3Cost size)
      push (keccak (← readMemory offset size)).toWord
  | .address => next do push (← params).address.toWord
  | .balance => next do
      let address := Address.ofWord (← pop)
      push (← balance ctx.host address)
  | .origin => next do push (← params).origin.toWord
  | .caller => next do push (← params).sender.toWord
  | .callValue => next do push (← params).value
  | .callDataLoad => next do
      let offset ← pop
      let data := (← params).data
      push (callDataWord data offset)
  | .callDataSize => next do push (Word.ofNat (← params).data.length)
  | .callDataCopy => next do
      let target ← pop
      let offset ← pop
      let size ← pop
      copyToMemory ctx.schedule target offset size (return (← params).data)
  | .codeSize => next do push (Word.ofNat (← get).frame.code.size)
  | .codeCopy => next do
      let target ← pop
      let offset ← pop
      let size ← pop
      copyToMemory ctx.schedule target offset size (return (← params).code)
  | .gasPrice => next do push (← params).gasPrice
  | .extCodeSize => next do
      let address := Address.ofWord (← pop)
      push (Word.ofNat (← code ctx.host address).length)
  | .extCodeCopy => next do
      let address := Address.ofWord (← pop)
      let target ← pop
      let offset ← pop
      let size ← pop
      copyToMemory ctx.schedule target offset size (code ctx.host address)
  | .returnDataSize => next do push (Word.ofNat (← get).frame.returnData.length)
  | .returnDataCopy => next (copyReturnData ctx.schedule)
  | .extCodeHash => next do
      pay ctx.schedule.extCodeHash
      let code ← code ctx.host (Address.ofWord (← pop))
      push (if code.isEmpty then 0 else (keccak code).toWord)
  | .blockHash => next do
      discard pop
      push ctx.env.blockHash.toWord
  | .coinbase => next (push ctx.env.coinbase.toWord)
  | .timestamp => next (push (Word.ofNat ctx.env.timestamp))
  | .number => next (push (Word.ofNat ctx.env.blockNumber))
  | .difficulty => next (push ctx.env.difficulty)
  | .gasLimit => next (push (Word.ofNat ctx.env.gasLimit))
  | .chainId => next (push (Word.ofNat ctx.env.chainId))
  | .selfBalance => next do push (← balance ctx.host (← params).address)
  | .pop => next (discard pop)
  | .mload => next do
      let (offset, _) ← touchMemory ctx.schedule (← pop) 32
      push ((← get).frame.memory.read offset)
  | .mstore => next do
      let offset ← pop
      let value ← pop
      let (offset, _) ← touchMemory ctx.schedule offset 32
      modifyMemory (·.write offset value)
  | .mstore8 => next do
      let offset ← pop
      let value ← pop
      let (offset, _) ← touchMemory ctx.schedule offset 1
      modifyMemory (·.writeByte offset (UInt8.ofNat value.toNat))
  | .sload => next do
      pay ctx.schedule.sload
      let key ← pop
      push ((← get).overlay.storage ctx.host (← params).address key)
  | .sstore => next (storeSlot ctx)
  | .jump => next do jump (← pop)
  | .jumpi => next do
      let target ← pop
      let condition ← pop
      if condition ≠ 0 then jump target
  | .pc => next (push (Word.ofNat pc))
  | .msize => next do push (Word.ofNat (← get).frame.memory.size)
  | .gas => next do push (Word.ofNat (← get).frame.gas)
  | .jumpDest => next (pay ctx.schedule.jumpDest)
  | .push n => next (pushData (n.val + 1))
  | .dup n => next do
      match (← get).frame.stack.dup (n.val + 1) with
      | .ok stack => modifyFrame fun f => { f with stack := stack }
      | .error cause => trap cause
  | .swap n => next do
      match (← get).frame.stack.swap (n.val + 1) with
      | .ok stack => modifyFrame fun f => { f with stack := stack }
      | .error cause => trap cause
  | .log n => next (log ctx.schedule n.val)
  | .ret => next do throw (.ret (← outputData ctx.schedule))
  | .revert => next do throw (.revert (← outputData ctx.schedule))
  | .selfDestruct => next (selfDestruct ctx)
  | .call kind => call ctx kind
  | .create kind => create ctx kind

/-- Checks the operands and the room on the stack, and pays the price of the cost class. -/
def charge (schedule : Schedule) (shape : Shape) : Step Unit := do
  let height := (← get).frame.stack.size
  require (shape.args ≤ height) .stackUnderflow
  require (height - shape.args + shape.ret ≤ Stack.limit) .outOfStack
  match schedule.tier? shape.tier with
  | some cost => pay cost
  | none => return

/-- The instruction at the program counter, whose byte is `code`. -/
def instruction (ctx : Context) (code : UInt8) : Step Flow := do
  let frame := (← get).frame
  report (.instruction frame.depth frame.pc code frame.gas)
  match Instruction.ofByte? code with
  | none => trap .invalidInstruction
  | some instruction =>
      charge ctx.schedule instruction.shape
      let pc := (← get).frame.pc
      modifyFrame fun f => { f with pc := f.pc + 1 }
      body ctx pc instruction

end Step

end EvmLedger.Vm
