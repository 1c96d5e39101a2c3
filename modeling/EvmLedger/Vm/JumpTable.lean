/-
# EvmLedger.Vm.JumpTable -- where code may be entered by a jump

A jump destination is a byte `0x5b` that is reached as an instruction, and not
one that is data of a push.  `destinations` walks the code once from the start,
stepping over the data of every push.
-/

import EvmLedger.Vm.Instruction
import EvmLedger.Word
import Std.Data.HashSet

namespace EvmLedger.Vm

set_option autoImplicit false

def jumpDestByte : UInt8 := 0x5b

/-- The destinations in code whose first byte is at `offset`, after `skip` bytes of push data. -/
def destinationsFrom (offset skip : Nat) : Bytes → List Nat
  | [] => []
  | byte :: rest =>
      match skip with
      | skip + 1 => destinationsFrom (offset + 1) skip rest
      | 0 =>
          let later := destinationsFrom (offset + 1) (Opcode.pushBytes byte) rest
          if byte = jumpDestByte then offset :: later else later

/-- The offsets of the jump destinations of code, in ascending order. -/
def destinations (code : Bytes) : List Nat :=
  destinationsFrom 0 0 code

/-- The jump destinations of one piece of code. -/
structure JumpTable where
  offsets : Std.HashSet Nat

namespace JumpTable

def ofCode (code : Bytes) : JumpTable :=
  ⟨.ofList (destinations code)⟩

/-- The offset that a jump to a word leads to, if it is a destination. -/
def target? (t : JumpTable) (target : Word) : Option Nat := do
  let offset ← target.narrow?
  if t.offsets.contains offset then some offset else none

def size (t : JumpTable) : Nat := t.offsets.size

end JumpTable

end EvmLedger.Vm
