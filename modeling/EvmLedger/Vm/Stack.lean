/-
# EvmLedger.Vm.Stack -- the operand stack

At most 1024 words, kept with the top first.  Every operation either does all it
should or reports a trap and leaves the stack alone.
-/

import EvmLedger.Vm.Trap
import EvmLedger.Word

namespace EvmLedger.Vm

set_option autoImplicit false

/-- The words of a frame, top first. -/
structure Stack where
  items : List Word := []
  deriving DecidableEq, Repr

namespace Stack

/-- The most words a stack may hold. -/
def limit : Nat := 1024

def size (s : Stack) : Nat := s.items.length

def push (s : Stack) (w : Word) : Except Trap Stack :=
  if limit ≤ s.size then .error .outOfStack else .ok ⟨w :: s.items⟩

def pop (s : Stack) : Except Trap (Word × Stack) :=
  match s.items with
  | [] => .error .stackUnderflow
  | top :: rest => .ok (top, ⟨rest⟩)

/-- Takes `count` words, the top one first. -/
def popMany (s : Stack) (count : Nat) : Except Trap (List Word × Stack) :=
  if s.size < count then .error .stackUnderflow
  else .ok (s.items.take count, ⟨s.items.drop count⟩)

def peek (s : Stack) (depth : Nat) : Except Trap Word :=
  match s.items[depth]? with
  | some w => .ok w
  | none => .error .stackUnderflow

/-- Exchanges the top with the word `depth` places below it, one at least. -/
def swap (s : Stack) (depth : Nat) : Except Trap Stack :=
  match depth, s.items with
  | below + 1, top :: rest =>
      match rest[below]? with
      | some w => .ok ⟨w :: rest.set below top⟩
      | none => .error .stackUnderflow
  | _, _ => .error .stackUnderflow

/-- Copies the `place`-th word, counted from one, to the top. -/
def dup (s : Stack) (place : Nat) : Except Trap Stack :=
  match place with
  | 0 => .error .stackUnderflow
  | depth + 1 =>
      match s.items[depth]? with
      | some w => s.push w
      | none => .error .stackUnderflow

end Stack

end EvmLedger.Vm
