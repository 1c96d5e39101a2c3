/-
# EvmLedger.Vm.Trap -- conditions that end a frame at once

A trap takes all the gas of its frame and undoes everything the frame wrote.
-/

namespace EvmLedger.Vm

set_option autoImplicit false

inductive Trap where
  /-- fewer operands on the stack than needed -/
  | stackUnderflow
  /-- more than 1024 words on the stack -/
  | outOfStack
  /-- a byte that is no instruction -/
  | invalidInstruction
  /-- a jump to a place that is no jump destination -/
  | invalidJump
  /-- a transfer larger than the sender's balance -/
  | insufficientFunds
  /-- a creation at an address that has code -/
  | invalidCodeAddress
  /-- a credit that does not fit a word -/
  | overflow
  /-- a copy from beyond the end of the return data -/
  | returnDataOutOfBounds
  /-- a change of state in a frame that must not make any -/
  | mutableCallInStaticContext
  deriving DecidableEq, Repr

/-- The text by which a trap is reported. -/
def Trap.message : Trap → String
  | .stackUnderflow => "STACK_UNDERFLOW"
  | .outOfStack => "OUT_OF_STACK"
  | .invalidInstruction => "INVALID_INSTRUCTION"
  | .invalidJump => "INVALID_JUMP"
  | .insufficientFunds => "MESSAGE_CALL_FAILED [Insufficient funds.]"
  | .invalidCodeAddress =>
      "MESSAGE_CALL_FAILED [An invalid address is attempting to create a contract.]"
  | .overflow => "MESSAGE_CALL_FAILED [An integer overflow ocurred.]"
  | .returnDataOutOfBounds => "RETURN_DATA_OUT_OF_BOUNDS"
  | .mutableCallInStaticContext => "MUTABLE_CALL_IN_STATIC_CONTEXT"

end EvmLedger.Vm
