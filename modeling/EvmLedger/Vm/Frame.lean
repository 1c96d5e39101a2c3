/-
# EvmLedger.Vm.Frame -- one activation of code

A frame is started with fixed parameters and then has a program counter, a
stack, memory, gas and the data its last call returned.  It ends in one of five
ways (`Result`); only a stop or a return keeps what it wrote, and only those and
a revert give back the gas that is left.

A frame that calls or creates waits for another frame; what it then does with
the result is its `Continuation`.
-/

import EvmLedger.Vm.JumpTable
import EvmLedger.Vm.Memory
import EvmLedger.Vm.Overlay
import EvmLedger.Vm.Schedule
import EvmLedger.Vm.Stack

namespace EvmLedger.Vm

set_option autoImplicit false

/-- The block that a transaction belongs to. -/
structure Env where
  chainId : Nat := 1
  blockNumber : Nat := 0
  timestamp : Nat := 0
  gasLimit : Nat := 10000000
  coinbase : Address := .zero
  difficulty : Word := 0
  /-- the answer for the hash of any block -/
  blockHash : Hash := .zero
  deriving DecidableEq, Repr

/-- How a frame was started. -/
inductive FrameKind where
  | call (kind : CallKind)
  | create (kind : CreateKind)
  deriving DecidableEq, Repr

/-- Whether the frame runs initialisation code. -/
def FrameKind.isCreate : FrameKind → Bool
  | .call _ => false
  | .create _ => true

def FrameKind.name : FrameKind → String
  | .call .call => "Call"
  | .call .callCode => "CallCode"
  | .call .delegateCall => "DelegateCall"
  | .call .staticCall => "StaticCall"
  | .create .create => "Create"
  | .create .create2 => "Create2"

/-- What a frame is started with. -/
structure Params where
  /-- the account whose storage and balance the frame acts on -/
  address : Address
  /-- the account that started the frame -/
  sender : Address
  /-- the account that started the transaction -/
  origin : Address
  gas : Nat
  gasPrice : Word := 0
  value : Word := 0
  code : Bytes
  data : Bytes := []
  kind : FrameKind := .call .call
  /-- whether the frame must not change any state -/
  isStatic : Bool := false
  deriving DecidableEq, Repr

namespace Params

/-- The frame that a frame starts by a call.  Borrowed code acts for the caller, and only a
delegated call keeps the caller's own sender and value. -/
def callee (self : Params) (kind : CallKind) (target : Address) (value : Word) (gas : Nat)
    (code input : Bytes) : Params where
  address := match kind with
    | .callCode | .delegateCall => self.address
    | .call | .staticCall => target
  sender := if kind = .delegateCall then self.sender else self.address
  origin := self.origin
  gas := gas
  gasPrice := self.gasPrice
  value := if kind = .delegateCall then self.value else value
  code := code
  data := input
  kind := .call kind
  isStatic := self.isStatic || kind == .staticCall

/-- The frame that a frame starts by a creation. -/
def creation (self : Params) (kind : CreateKind) (address : Address) (value : Word) (gas : Nat)
    (initCode : Bytes) : Params where
  address := address
  sender := self.address
  origin := self.origin
  gas := gas
  gasPrice := self.gasPrice
  value := value
  code := initCode
  kind := .create kind

end Params

/-- How a frame ended. -/
inductive Result where
  | stopped (gasLeft : Nat)
  | done (data : Bytes) (gasLeft : Nat)
  | reverted (data : Bytes) (gasLeft : Nat)
  | outOfGas
  | trap (cause : Trap)
  deriving DecidableEq, Repr

namespace Result

/-- The gas that goes back to the caller. -/
def gasLeft : Result → Nat
  | .stopped gas => gas
  | .done _ gas => gas
  | .reverted _ gas => gas
  | .outOfGas => 0
  | .trap _ => 0

/-- Whether the frame's writes are kept. -/
def isSuccess : Result → Bool
  | .stopped _ => true
  | .done .. => true
  | _ => false

def output : Result → Bytes
  | .done data _ => data
  | .reverted data _ => data
  | _ => []

/-- The text by which a result is reported. -/
def status : Result → String
  | .stopped _ => "success"
  | .done .. => "success"
  | .reverted .. => "reverted"
  | .outOfGas => "out_of_gas"
  | .trap cause => cause.message

end Result

/-- Why a frame stopped executing instructions. -/
inductive Halt where
  | stop
  | ret (data : Bytes)
  | revert (data : Bytes)
  | outOfGas
  | trap (cause : Trap)
  deriving DecidableEq, Repr

/-- The result of a frame that halts with so much gas left. -/
def Halt.result (gas : Nat) : Halt → Result
  | .stop => .stopped gas
  | .ret data => .done data gas
  | .revert data => .reverted data gas
  | .outOfGas => .outOfGas
  | .trap cause => .trap cause

/-- What a waiting frame does with the result of the frame it started. -/
inductive Continuation where
  /-- write the output to memory and push whether the call succeeded -/
  | call (offset size : Nat)
  /-- push the new address, or zero -/
  | create (address : Address)
  deriving DecidableEq, Repr

structure Frame where
  params : Params
  /-- the bytes of `params.code` -/
  code : Array UInt8
  jumps : JumpTable
  /-- the number of frames that wait for this one -/
  depth : Nat
  pc : Nat
  stack : Stack
  memory : Memory
  gas : Nat
  /-- what the last call or creation returned -/
  returnData : Bytes

def Frame.start (params : Params) (jumps : JumpTable) (depth : Nat) : Frame where
  params := params
  code := params.code.toArray
  jumps := jumps
  depth := depth
  pc := 0
  stack := {}
  memory := {}
  gas := params.gas
  returnData := []

/-! ## What can be observed -/

/-- What happens during a run, in order.  Events are reported and never read back. -/
inductive Event where
  /-- a frame is to be started -/
  | enter (depth : Nat) (address : Address) (kind : FrameKind) (gas : Nat)
  /-- the frame could not start -/
  | rejected (depth : Nat) (cause : Trap)
  /-- a frame ended -/
  | exit (depth : Nat)
  /-- an instruction is next -/
  | instruction (depth pc : Nat) (code : UInt8) (gas : Nat)
  /-- a call failed before it started a frame -/
  | callRejected (depth : Nat) (target : Address)
  /-- a creation failed before it started a frame -/
  | createRejected (depth : Nat) (creator : Address)
  /-- an account destroyed itself -/
  | selfDestruct (depth : Nat) (address beneficiary : Address)
  /-- the host was asked for the code of an account -/
  | codeLookup (address : Address)
  /-- a frame paid for its memory to cover what is touched next -/
  | memoryPaid (depth amount : Nat)
  /-- an instruction has no price, so the run has no outcome -/
  | unpriced
  deriving DecidableEq, Repr

/-- The line that reports an event; questions to the host, payments for memory and missing prices
are not reported. -/
def Event.line? : Event → Option String
  | .enter depth address kind gas =>
      some ("enter " ++ toString depth ++ " " ++ address.toHex ++ " " ++ kind.name ++ " " ++
        toString gas)
  | .rejected depth cause => some ("rejected " ++ toString depth ++ " " ++ cause.message)
  | .exit depth => some ("exit " ++ toString depth)
  | .instruction depth pc code gas =>
      some (toString depth ++ " " ++ toString pc ++ " " ++ Opcode.mnemonic code ++ " " ++
        toString gas)
  | .callRejected depth target =>
      some ("call-rejected " ++ toString depth ++ " " ++ target.toHex)
  | .createRejected depth creator =>
      some ("create-rejected " ++ toString depth ++ " " ++ creator.toHex)
  | .selfDestruct depth address beneficiary =>
      some ("selfdestruct " ++ toString depth ++ " " ++ address.toHex ++ " " ++ beneficiary.toHex)
  | .codeLookup _ => none
  | .memoryPaid .. => none
  | .unpriced => none

end EvmLedger.Vm
