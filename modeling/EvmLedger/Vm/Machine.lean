/-
# EvmLedger.Vm.Machine -- frames that call frames

The machine is a running frame and a list of frames that wait for it, nearest
first.  It moves in four kinds of steps: a frame is opened, an instruction is
executed, a frame that halted is closed, and a waiting frame takes over a result
(`Machine.step`).  Nesting lives in the list, never in the recursion of the
interpreter.

Every frame has one scope of the overlay.  Opening a frame opens its scope and
moves the value it was sent; closing it deposits created code (`settle`), and
then keeps the scope of a success and forgets any other.  A frame that cannot
start leaves no trace but its trap.

`run` repeats the steps and shows every event to an observer, who cannot
influence them.  Under a price list with free instructions a program may run
forever, so the number of steps is bounded; the bound that `execute` sets is out
of reach for programs that pay at least one unit of gas per instruction.  A run
that met an instruction without a price has no outcome.
-/

import EvmLedger.Vm.Step
import Std.Data.HashMap

namespace EvmLedger.Vm

set_option autoImplicit false

/-- Jump tables of code met before, by the digest of the code. -/
abbrev JumpCache := Std.HashMap Hash JumpTable

/-- The jump table of some code, from the cache or newly made. -/
def JumpCache.fetch (cache : JumpCache) (code : Bytes) : JumpTable × JumpCache :=
  let key := Crypto.keccak code
  match cache[key]? with
  | some table => (table, cache)
  | none =>
      let table := JumpTable.ofCode code
      (table, cache.insert key table)

/-- A frame that waits for another one. -/
structure Suspended where
  frame : Frame
  /-- what it does with the other frame's result -/
  continuation : Continuation

/-- What the machine does next. -/
inductive Control where
  /-- start a frame -/
  | enter (params : Params)
  /-- execute the next instruction -/
  | running (frame : Frame)
  /-- close a frame that executes no more instructions -/
  | halting (frame : Frame) (halt : Halt)
  /-- hand a result to the nearest waiting frame -/
  | returning (result : Result)

/-- What surrounds the running frame. -/
structure Scene where
  /-- the waiting frames, nearest first -/
  waiting : List Suspended
  overlay : Overlay
  cache : JumpCache

/-- The state of a run. -/
structure Machine extends Scene where
  control : Control

namespace Machine

/-! ## Opening and closing frames -/

/-- The collision check and the transfer of value before the first instruction. -/
def prepare (host : Host) (overlay : Overlay) (params : Params) : Except Trap Overlay :=
  if params.kind.isCreate ∧ (overlay.code host params.address).isEmpty = false then
    .error .invalidCodeAddress
  else
    match params.kind with
    | .call .delegateCall => .ok overlay
    | .call .staticCall => .ok overlay
    | _ => overlay.transfer host params.sender params.address params.value

/-- The questions to the host that a frame's preparation asks. -/
def prepareEvents (overlay : Overlay) (params : Params) : List Event :=
  if params.kind.isCreate ∧ ((overlay.code? params.address).isNone) then
    [.codeLookup params.address]
  else []

/-- Starts a frame, or turns it away with a trap. -/
def openFrame (ctx : Context) (scene : Scene) (params : Params) : Machine × List Event :=
  let depth := scene.waiting.length
  let entered := scene.overlay.enter
  let events := .enter depth params.address params.kind params.gas :: prepareEvents entered params
  match prepare ctx.host entered params with
  | .error cause =>
      (⟨{ scene with overlay := entered.discard }, .returning (.trap cause)⟩,
        events ++ [.rejected depth cause])
  | .ok overlay =>
      let (jumps, cache) := scene.cache.fetch params.code
      (⟨⟨scene.waiting, overlay, cache⟩, .running (.start params jumps depth)⟩, events)

/-- Pays for and stores the code that a creation returned. -/
def deposit (schedule : Schedule) (overlay : Overlay) (address : Address) (result : Result) :
    Result × Overlay :=
  match result with
  | .done data gas =>
      let cost := schedule.depositCost data.length
      if gas < cost then (.outOfGas, overlay)
      else (.done data (gas - cost), overlay.setCode address data)
  | other => (other, overlay)

/-- What a frame that halted comes to, while its scope is still open: only a creation has more
to do. -/
def settle (schedule : Schedule) (params : Params) (overlay : Overlay) (result : Result) :
    Result × Overlay :=
  if params.kind.isCreate then deposit schedule overlay params.address result
  else (result, overlay)

def closeFrame (ctx : Context) (scene : Scene) (frame : Frame) (halt : Halt) :
    Machine × List Event :=
  let (result, overlay) := settle ctx.schedule frame.params scene.overlay (halt.result frame.gas)
  (⟨{ scene with overlay := if result.isSuccess then overlay.commit else overlay.discard },
      .returning result⟩,
    [.exit frame.depth])

/-! ## Results -/

/-- Hands the result of a frame to the one that waited for it. -/
def resume (frame : Frame) (continuation : Continuation) (result : Result) : Except Trap Frame :=
  let frame := { frame with gas := Gas.takeBack frame.gas result.gasLeft }
  match continuation with
  | .call offset size => do
      let output := result.output
      let memory :=
        if size = 0 then frame.memory else frame.memory.writeSlice offset (output.take size)
      let stack ← frame.stack.push (.ofBool result.isSuccess)
      .ok { frame with memory := memory, returnData := output, stack := stack }
  | .create address => do
      let stack ← frame.stack.push (if result.isSuccess then address.toWord else 0)
      let returnData := match result with
        | .reverted data _ => data
        | _ => frame.returnData
      .ok { frame with stack := stack, returnData := returnData }

/-! ## Steps -/

/-- Executes the instruction at the program counter of the running frame; the end of the code
stops it. -/
def stepFrame (ctx : Context) (scene : Scene) (frame : Frame) : Machine × List Event :=
  match frame.code[frame.pc]? with
  | none => (⟨scene, .halting frame .stop⟩, [])
  | some code =>
      let ⟨waiting, overlay, cache⟩ := scene
      match (Step.instruction ctx code).run ⟨frame, overlay, []⟩ with
      | .ok .next s => (⟨⟨waiting, s.overlay, cache⟩, .running s.frame⟩, s.events.reverse)
      | .ok (.enter params continuation) s =>
          (⟨⟨⟨s.frame, continuation⟩ :: waiting, s.overlay, cache⟩, .enter params⟩,
            s.events.reverse)
      | .error halt s => (⟨⟨waiting, s.overlay, cache⟩, .halting s.frame halt⟩, s.events.reverse)

/-- Hands a result to the nearest waiting frame; a result that nobody waits for stays. -/
def stepReturn (scene : Scene) (result : Result) : Machine × List Event :=
  match scene.waiting with
  | [] => (⟨scene, .returning result⟩, [])
  | ⟨frame, continuation⟩ :: rest =>
      let scene := { scene with waiting := rest }
      match resume frame continuation result with
      | .ok frame => (⟨scene, .running frame⟩, [])
      | .error cause => (⟨scene, .halting frame (.trap cause)⟩, [])

/-- One step of the machine. -/
def step (ctx : Context) (m : Machine) : Machine × List Event :=
  match m with
  | ⟨scene, .enter params⟩ => openFrame ctx scene params
  | ⟨scene, .running frame⟩ => stepFrame ctx scene frame
  | ⟨scene, .halting frame halt⟩ => closeFrame ctx scene frame halt
  | ⟨scene, .returning result⟩ => stepReturn scene result

/-- The result of a run that has ended. -/
def result? (m : Machine) : Option Result :=
  match m.control, m.waiting with
  | .returning result, [] => some result
  | _, _ => none

/-- The machine before the first step of a run. -/
def start (params : Params) (cache : JumpCache) : Machine :=
  ⟨⟨[], {}, cache⟩, .enter params⟩

/-- Repeats steps until the run has ended, at most `fuel` times, and shows the events to an
observer. -/
def run {σ : Type} (ctx : Context) (observe : σ → Event → σ) :
    (fuel : Nat) → Machine → σ → Option (Result × Machine × σ)
  | 0, _, _ => none
  | fuel + 1, m, seen =>
      match m.result? with
      | some result => some (result, m, seen)
      | none =>
          let (next, events) := step ctx m
          run ctx observe fuel next (events.foldl observe seen)

end Machine

/-! ## Whole runs -/

/-- What a transaction's outermost frame comes to. -/
structure Outcome where
  result : Result
  /-- what it wrote; nothing unless it succeeded -/
  effects : Effects
  deriving DecidableEq

/-- Why a run has no outcome. -/
inductive Refusal where
  /-- the outermost frame must be a call or a creation -/
  | invalidParams
  /-- the bound on the number of steps was reached -/
  | unfinished
  /-- the price of an instruction is no quantity; this ends the whole program, not just the run -/
  | unpriced
  deriving DecidableEq, Repr

def Refusal.message : Refusal → String
  | .invalidParams => "invalid params: top-level frame must be a call or a create"
  | .unfinished => "execution did not finish"
  | .unpriced => "the price of an instruction is out of range"

/-- The bound on the number of steps for so much gas. -/
def stepBound (gas : Nat) : Nat := 4611686018427387904 + 8 * gas

/-- What an observer has seen, and whether an instruction had no price. -/
def notePrices {σ : Type} (observe : σ → Event → σ) (seen : σ × Bool) (event : Event) : σ × Bool :=
  (observe seen.1 event, seen.2 || event == .unpriced)

/-- Runs an outermost frame, showing the events to an observer.  The jump cache may come from
earlier runs and is handed back. -/
def executeObserved {σ : Type} (ctx : Context) (observe : σ → Event → σ) (cache : JumpCache)
    (params : Params) (seen : σ) : Except Refusal (Outcome × JumpCache × σ) :=
  match params.kind with
  | .call .callCode => .error .invalidParams
  | .call .delegateCall => .error .invalidParams
  | .call .staticCall => .error .invalidParams
  | _ =>
      match Machine.run ctx (notePrices observe) (stepBound params.gas) (.start params cache)
          (seen, false) with
      | some (result, m, seen, false) => .ok (⟨result, m.overlay.flatten⟩, m.cache, seen)
      | some (_, _, _, true) => .error .unpriced
      | none => .error .unfinished

def execute (ctx : Context) (params : Params) : Except Refusal Outcome :=
  (executeObserved ctx (fun _ _ => ()) ∅ params ()).map (·.1)

end EvmLedger.Vm
