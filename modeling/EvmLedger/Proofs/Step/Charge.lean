/-
# EvmLedger.Proofs.Step.Charge -- what comes before the work of an instruction

Before its work an instruction is reported, and checked for a known byte, for
operands, for room and for the price of its cost class, in that order (`Ready`,
`Barred`).  Laws about whole instructions are laws about their work, once this is
out of the way (`instruction_meets`).
-/
import EvmLedger.Proofs.Step.Local

namespace EvmLedger.Vm

set_option autoImplicit false

/-- The price of a cost class; nothing for the class whose instructions have their own prices. -/
def Schedule.classPrice (schedule : Schedule) (tier : Tier) : Nat := (schedule.tier? tier).getD 0

/-- The frame has the operands and the room that an instruction asks for, and the price of its cost
class. -/
structure Ready (schedule : Schedule) (shape : Shape) (frame : Frame) : Prop where
  operands : shape.args ≤ frame.stack.size
  room : frame.stack.size - shape.args + shape.ret ≤ Stack.limit
  price : schedule.classPrice shape.tier ≤ frame.gas

/-- The first thing that an instruction asks for and the frame does not have, as the cause of its
halt. -/
inductive Barred (schedule : Schedule) (shape : Shape) (frame : Frame) : Halt → Prop
  | short (few : frame.stack.size < shape.args) :
      Barred schedule shape frame (.trap .stackUnderflow)
  | full (operands : shape.args ≤ frame.stack.size)
      (many : Stack.limit < frame.stack.size - shape.args + shape.ret) :
      Barred schedule shape frame (.trap .outOfStack)
  | poor (operands : shape.args ≤ frame.stack.size)
      (room : frame.stack.size - shape.args + shape.ret ≤ Stack.limit)
      (dear : frame.gas < schedule.classPrice shape.tier) :
      Barred schedule shape frame .outOfGas

theorem Barred.not_ready {schedule : Schedule} {shape : Shape} {frame : Frame} {halt : Halt}
    (barred : Barred schedule shape frame halt) : ¬Ready schedule shape frame := by
  rintro ⟨operands, room, price⟩
  cases barred with
  | short few => exact absurd operands (Nat.not_le.2 few)
  | full _ many => exact absurd room (Nat.not_le.2 many)
  | poor _ _ dear => exact absurd price (Nat.not_le.2 dear)

/-- The frame behind the byte of an instruction, with `price` paid. -/
def Frame.begun (price : Nat) (frame : Frame) : Frame :=
  { frame with pc := frame.pc + 1, gas := frame.gas - price }

/-- The state after the report of an instruction. -/
def Exec.announced (byte : UInt8) (s : Exec) : Exec :=
  { s with events := .instruction s.frame.depth s.frame.pc byte s.frame.gas :: s.events }

/-- The state in which the work of an instruction begins. -/
def Exec.begun (byte : UInt8) (price : Nat) (s : Exec) : Exec :=
  { s.announced byte with frame := s.frame.begun price }

namespace Step

section Related

variable (R : Exec → Exec → Prop) [Lenient R]

theorem announced_related (byte : UInt8) (s : Exec) : R s (s.announced byte) :=
  Lenient.report s _ rfl

theorem begun_related [CounterBlind R] (byte : UInt8) (price : Nat) (s : Exec) :
    R s (s.begun byte price) := by
  have moved := CounterBlind.pc (R := R) (s.announced byte) (s.frame.pc + 1)
  have paid := Lenient.gas (R := R) { s.announced byte with
    frame := { s.frame with pc := s.frame.pc + 1 } } (s.frame.gas - price) (Nat.sub_le _ _)
  exact trans_of R (announced_related R byte s) (trans_of R moved paid)

end Related

variable {ctx : Context} {byte : UInt8} {s : Exec}

theorem charge_meets {schedule : Schedule} {shape : Shape} {next : Unit → Exec → Prop}
    {halted : Halt → Exec → Prop}
    (go : Ready schedule shape s.frame →
      next () { s with frame :=
        { s.frame with gas := s.frame.gas - schedule.classPrice shape.tier } })
    (stop : ∀ halt, Barred schedule shape s.frame halt → halted halt s) :
    Meets (charge schedule shape) s next halted := by
  unfold charge
  rw [meets_bind_iff, meets_get, meets_bind_iff, meets_require]
  refine ⟨fun operands => ?_, fun short => stop _ (.short (Nat.lt_of_not_le short))⟩
  rw [meets_bind_iff, meets_require]
  refine ⟨fun room => ?_, fun full => stop _ (.full operands (Nat.lt_of_not_le full))⟩
  cases listed : schedule.tier? shape.tier with
  | none =>
      have free : schedule.classPrice shape.tier = 0 := by simp [Schedule.classPrice, listed]
      rw [free] at go
      exact go ⟨operands, room, free ▸ Nat.zero_le _⟩
  | some price =>
      have same : schedule.classPrice shape.tier = price := by simp [Schedule.classPrice, listed]
      rw [meets_pay, ← same]
      exact ⟨fun paid => go ⟨operands, room, paid⟩, fun dear => stop _ (.poor operands room dear)⟩

/-- A byte that is no instruction halts the frame. -/
theorem instruction_unknown (unknown : Instruction.ofByte? byte = none)
    {next : Flow → Exec → Prop} {halted : Halt → Exec → Prop}
    (stop : halted (.trap .invalidInstruction) (s.announced byte)) :
    Meets (Step.instruction ctx byte) s next halted := by
  unfold Step.instruction
  rw [meets_bind_iff, meets_get, meets_bind_iff, meets_report, unknown]
  exact stop

/-- An instruction that is ready does its work; one that is not halts the frame before. -/
theorem instruction_meets {instruction : Instruction}
    (decoded : Instruction.ofByte? byte = some instruction) {next : Flow → Exec → Prop}
    {halted : Halt → Exec → Prop}
    (go : Ready ctx.schedule instruction.shape s.frame →
      Meets (body ctx s.frame.pc instruction)
        (s.begun byte (ctx.schedule.classPrice instruction.shape.tier)) next halted)
    (stop : ∀ halt, Barred ctx.schedule instruction.shape s.frame halt →
      halted halt (s.announced byte)) :
    Meets (Step.instruction ctx byte) s next halted := by
  unfold Step.instruction
  rw [meets_bind_iff, meets_get, meets_bind_iff, meets_report, decoded]
  dsimp only
  rw [meets_bind_iff]
  refine charge_meets (fun ready => ?_) stop
  rw [meets_bind_iff, meets_get, meets_bind_iff, meets_modifyFrame]
  exact go ready

/-- A relation that looks at nothing in particular is respected by every instruction. -/
theorem instruction_respects {R : Exec → Exec → Prop} [Tolerant R] [CounterBlind R]
    [OverlayBlind R] [PriceBlind ctx.schedule R] (back : ∀ amount, Respects R (takeBack amount))
    (byte : UInt8) : Respects R (Step.instruction ctx byte) := by
  intro s
  cases decoded : Instruction.ofByte? byte with
  | none => exact instruction_unknown decoded (announced_related R byte s)
  | some instruction =>
      have works : Respects R (body ctx s.frame.pc instruction) := by
        cases straight : instruction.setsPc with
        | false => exact body_respects_of_straight back ctx s.frame.pc straight
        | true => exact body_respects_of_setsPc ctx s.frame.pc straight
      refine instruction_meets decoded (fun _ => ?_) fun _ _ => announced_related R byte s
      have begins := begun_related R byte (ctx.schedule.classPrice instruction.shape.tier) s
      exact works.meets (fun _ _ after => trans_of R begins after)
        fun _ _ after => trans_of R begins after

end Step

end EvmLedger.Vm
