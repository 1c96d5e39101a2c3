/-
# EvmLedger.Proofs.Step.Counter -- where the program counter goes

An instruction leaves the program counter behind itself and its push data, or at
the jump destination that it found.  Only jumps and pushes set the counter in
their own work; all others are `Steady` there, also when they write, call or
create.  When an instruction halts the frame, the counter is where it was or
behind the instruction (`instruction_counter`).

A push is described in full (`instruction_push`): it puts the bytes behind it on
the stack, with zeros for those past the end of the code, unless the frame has no
room or no gas for it.
-/
import EvmLedger.Proofs.Bytes
import EvmLedger.Proofs.Step.Charge

namespace EvmLedger.Vm

set_option autoImplicit false

/-- The number of data bytes that an instruction steps over. -/
def Instruction.dataBytes : Instruction → Nat
  | .push n => n.val + 1
  | _ => 0

/-- The scan for jump destinations and the instructions agree on the length of push data. -/
theorem pushBytes_eq (byte : UInt8) :
    Opcode.pushBytes byte = (Instruction.ofByte? byte).elim 0 Instruction.dataBytes := by
  revert byte
  exact Bytes.forall_byte (by decide +kernel)

/-- Only pushes have data. -/
theorem exists_push {byte : UInt8} (data : 0 < Opcode.pushBytes byte) :
    ∃ n : Fin 32, Instruction.ofByte? byte = some (.push n) ∧
      Opcode.pushBytes byte = n.val + 1 := by
  have same := pushBytes_eq byte
  cases decoded : Instruction.ofByte? byte with
  | none =>
      rw [same, decoded] at data
      cases data
  | some instruction =>
      cases instruction with
      | push n =>
          rw [decoded] at same
          exact ⟨n, rfl, same⟩
      | _ =>
          rw [same, decoded] at data
          cases data

/-- The bytes behind an instruction as a word; past the end of the code there are zeros. -/
def Frame.dataWord (frame : Frame) (count : Nat) : Word :=
  Word.ofBytes (Bytes.window frame.code.toList (frame.pc + 1) count)

namespace Step

/-- The same activation at the same place. -/
structure Steady (s t : Exec) : Prop where
  frame : s.frame.Continues t.frame
  pc : t.frame.pc = s.frame.pc

instance : Tolerant Steady where
  refl s := ⟨.refl s.frame, rfl⟩
  trans _ _ _ first second := ⟨first.frame.trans second.frame, second.pc.trans first.pc⟩
  stack _ _ := ⟨⟨rfl, rfl, rfl, rfl⟩, rfl⟩
  memory _ _ := ⟨⟨rfl, rfl, rfl, rfl⟩, rfl⟩
  returnData _ _ := ⟨⟨rfl, rfl, rfl, rfl⟩, rfl⟩
  gas _ _ _ := ⟨⟨rfl, rfl, rfl, rfl⟩, rfl⟩
  report s _ _ := ⟨.refl s.frame, rfl⟩
  payment s _ _ := ⟨.refl s.frame, rfl⟩

instance (schedule : Schedule) : PriceBlind schedule Steady where
  unpriced s _ _ := ⟨.refl s.frame, rfl⟩

instance : OverlayBlind Steady where
  overlay s _ := ⟨.refl s.frame, rfl⟩

theorem takeBack_steady (amount : Nat) : Respects Steady (takeBack amount) :=
  fun _ => ⟨⟨rfl, rfl, rfl, rfl⟩, rfl⟩

/-- Only jumps and pushes set the program counter in their own work. -/
theorem body_steady (ctx : Context) (pc : Nat) {instruction : Instruction}
    (straight : instruction.setsPc = false) : Respects Steady (body ctx pc instruction) :=
  body_respects_of_straight takeBack_steady ctx pc straight

/-! ## Pushes -/

theorem pushData_meets {count : Nat} {s : Exec} {next : Unit → Exec → Prop}
    {halted : Halt → Exec → Prop} (room : s.frame.stack.size < Stack.limit)
    (pushed : next () { s with frame := { s.frame with
      pc := s.frame.pc + count
      stack := ⟨Word.ofBytes (Bytes.window s.frame.code.toList s.frame.pc count) ::
        s.frame.stack.items⟩ } }) :
    Meets (pushData count) s next halted := by
  have part : (s.frame.code.extract s.frame.pc (s.frame.pc + count)).toList =
      (s.frame.code.toList.drop s.frame.pc).take count := by
    rw [Array.toList_extract, List.extract_eq_take_drop, Nat.add_sub_cancel_left]
  unfold pushData
  rw [meets_bind_iff, meets_get]
  dsimp only
  rw [part, meets_bind_iff, meets_push]
  exact ⟨fun _ => pushed, fun full => absurd room (Nat.not_lt.2 full)⟩

/-- A push puts the bytes behind it on the stack and goes on behind them.  It fails only for lack of
room or of gas, and then nothing has happened. -/
theorem instruction_push (ctx : Context) {s : Exec} {byte : UInt8} {n : Fin 32}
    (decoded : Instruction.ofByte? byte = some (.push n)) :
    Meets (Step.instruction ctx byte) s
      (fun flow t => flow = .next ∧ t.overlay = s.overlay ∧ t.frame = { s.frame with
        pc := s.frame.pc + 1 + (n.val + 1)
        gas := s.frame.gas - ctx.schedule.tiers.veryLow
        stack := ⟨s.frame.dataWord (n.val + 1) :: s.frame.stack.items⟩ })
      (fun halt t => t.overlay = s.overlay ∧ t.frame = s.frame ∧
        (halt = .trap .outOfStack ∧ Stack.limit ≤ s.frame.stack.size ∨
          halt = .outOfGas ∧ s.frame.gas < ctx.schedule.tiers.veryLow)) := by
  refine instruction_meets decoded (fun ready => ?_) fun halt barred => ⟨rfl, rfl, ?_⟩
  · exact meets_next.2 (pushData_meets (Nat.lt_of_succ_le ready.room) ⟨rfl, rfl, rfl⟩)
  · cases barred with
    | short few => exact absurd few (Nat.not_lt_zero _)
    | full _ many => exact .inl ⟨rfl, Nat.le_of_lt_succ many⟩
    | poor _ _ dear => exact .inr ⟨rfl, dear⟩

/-! ## Jumps, and the whole instruction set -/

/-- The frame goes on behind an instruction of which `byte` is the byte. -/
structure Passed (byte : UInt8) (s t : Exec) : Prop where
  frame : s.frame.Continues t.frame
  pc : t.frame.pc = s.frame.pc + 1 + Opcode.pushBytes byte

/-- The frame goes on at a jump destination. -/
structure Jumped (s t : Exec) : Prop where
  frame : s.frame.Continues t.frame
  target : ∃ target, s.frame.jumps.target? target = some t.frame.pc

/-- A push goes on behind its data. -/
theorem push_counter (ctx : Context) {s : Exec} {byte : UInt8} {n : Fin 32}
    (decoded : Instruction.ofByte? byte = some (.push n)) :
    Meets (Step.instruction ctx byte) s (fun _ t => Passed byte s t) (fun _ t => Steady s t) := by
  have data := pushBytes_eq byte
  rw [decoded, Option.elim_some] at data
  refine (instruction_push ctx decoded).mono (fun _ t pushed => ?_) (fun _ t failed => ?_)
  · obtain ⟨_, _, frame⟩ := pushed
    refine ⟨?_, ?_⟩
    · rw [frame]
      exact ⟨rfl, rfl, rfl, rfl⟩
    · rw [frame, data]
      rfl
  · obtain ⟨_, frame, _⟩ := failed
    refine ⟨?_, ?_⟩
    · rw [frame]
      exact .refl _
    · rw [frame]

theorem jump_counter (target : Word) (s : Exec) :
    Meets (jump target) s (fun _ t => Jumped s t) (fun _ t => Steady s t) := by
  unfold jump
  rw [meets_bind_iff, meets_get]
  cases found : s.frame.jumps.target? target with
  | some pc => exact ⟨⟨rfl, rfl, rfl, rfl⟩, target, found⟩
  | none => exact refl_of Steady s

theorem jump_meets {target : Word} {pc : Nat} {s : Exec} {next : Unit → Exec → Prop}
    {halted : Halt → Exec → Prop} (found : s.frame.jumps.target? target = some pc)
    (jumped : next () { s with frame := { s.frame with pc := pc } }) :
    Meets (jump target) s next halted := by
  unfold jump
  rw [meets_bind_iff, meets_get, found]
  exact jumped

/-- A jump that is ready goes to the destination that its operand names. -/
theorem instruction_jump (ctx : Context) {s : Exec} {target : Word} {rest : List Word} {pc : Nat}
    (ready : Ready ctx.schedule Instruction.jump.shape s.frame)
    (items : s.frame.stack.items = target :: rest)
    (found : s.frame.jumps.target? target = some pc) :
    Meets (Step.instruction ctx 0x56) s
      (fun flow t => flow = .next ∧ t.overlay = s.overlay ∧ t.frame = { s.frame with
        pc := pc
        gas := s.frame.gas - ctx.schedule.tiers.mid
        stack := ⟨rest⟩ })
      fun _ _ => False := by
  have decoded : Instruction.ofByte? 0x56 = some .jump := rfl
  refine instruction_meets decoded (fun _ => meets_next.2 ?_) fun _ barred => barred.not_ready ready
  rw [meets_bind_iff]
  exact (meets_pop (s := s.begun _ _) items).2 (jump_meets found ⟨rfl, rfl, rfl⟩)

/-- The work of a jump that is taken, not taken or refused. -/
theorem body_jumps (ctx : Context) (pc : Nat) {instruction : Instruction} (s : Exec)
    (jumps : instruction = .jump ∨ instruction = .jumpi) :
    Meets (body ctx pc instruction) s (fun _ t => Steady s t ∨ Jumped s t)
      (fun _ t => Steady s t) := by
  have stop : ∀ (_ : Halt) (t : Exec), Steady s t → Steady s t := fun _ _ before => before
  have taken : ∀ (target : Word) (t : Exec), Steady s t →
      Meets (jump target) t (fun _ u => Steady s u ∨ Jumped s u) (fun _ u => Steady s u) := by
    intro target t before
    refine (jump_counter target t).mono (fun _ u after => Or.inr ?_) (fun _ u after => ?_)
    · refine ⟨before.frame.trans after.frame, ?_⟩
      rw [← before.frame.jumps]
      exact after.target
    · exact trans_of Steady before after
  rcases jumps with rfl | rfl
  · exact meets_next.2 (pop_respects.follow (refl_of Steady s) stop taken)
  · refine meets_next.2 (pop_respects.follow (refl_of Steady s) stop fun target s₁ before => ?_)
    refine pop_respects.follow before stop fun condition s₂ before => ?_
    split
    · exact taken target s₂ before
    · exact Or.inl before

/-- Work that is not a push ends at the counter that it was given, or at a jump destination. -/
theorem body_counter (ctx : Context) (pc : Nat) {instruction : Instruction} (s : Exec)
    (pushless : instruction.dataBytes = 0) :
    Meets (body ctx pc instruction) s (fun _ t => Steady s t ∨ Jumped s t)
      (fun _ t => Steady s t) := by
  cases straight : instruction.setsPc with
  | false =>
      exact (body_steady ctx pc straight).meets (fun _ _ after => Or.inl after)
        fun _ _ after => after
  | true =>
      cases instruction with
      | jump => exact body_jumps ctx pc s (Or.inl rfl)
      | jumpi => exact body_jumps ctx pc s (Or.inr rfl)
      | push n => cases pushless
      | _ => cases straight

/-- Whatever byte is executed: the frame goes on behind the instruction or at a jump destination, and
when it halts, the counter is at the instruction or behind it. -/
theorem instruction_counter (ctx : Context) (s : Exec) (byte : UInt8) :
    Meets (Step.instruction ctx byte) s (fun _ t => Passed byte s t ∨ Jumped s t)
      (fun _ t => Steady s t ∨ Passed byte s t) := by
  have announced := announced_related Steady byte s
  cases decoded : Instruction.ofByte? byte with
  | none => exact instruction_unknown decoded (Or.inl announced)
  | some instruction =>
      have data := pushBytes_eq byte
      rw [decoded, Option.elim_some] at data
      cases push : instruction.dataBytes with
      | succ count =>
          cases instruction with
          | push n =>
              exact (push_counter ctx decoded).mono (fun _ _ => Or.inl) (fun _ _ => Or.inl)
          | _ => cases push
      | zero =>
          refine instruction_meets decoded (fun _ => ?_) fun _ _ => Or.inl announced
          -- the counter has been moved on by one, and that is behind an instruction without data
          have passed : ∀ price t, Steady (s.begun byte price) t → Passed byte s t := by
            intro price t after
            refine ⟨⟨after.frame.params, after.frame.code, after.frame.jumps, after.frame.depth⟩, ?_⟩
            rw [after.pc, data, push]
            rfl
          refine (body_counter ctx _ _ push).mono (fun _ t after => ?_) (fun _ t after => ?_)
          · rcases after with steady | jumped
            · exact Or.inl (passed _ t steady)
            · have frame := jumped.frame
              exact Or.inr ⟨⟨frame.params, frame.code, frame.jumps, frame.depth⟩, jumped.target⟩
          · exact Or.inr (passed _ t after)

end Step

end EvmLedger.Vm
