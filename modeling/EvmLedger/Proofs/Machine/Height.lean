/-
# EvmLedger.Proofs.Machine.Height -- no stack overflows when a frame returns

The check before an instruction makes room for all words that it is to leave, also
for the one that a call or a creation leaves only when the other frame has ended.
Until then the frame waits and its stack is left alone, so there is always room
when a result comes back (`waiting_room`), however many frames ran in between.
-/
import EvmLedger.Proofs.Machine.Frames
import EvmLedger.Proofs.Step.Height

namespace EvmLedger.Vm

set_option autoImplicit false

/-- After `args` words were taken from the one stack and `ret` words put in their place. -/
structure Stack.Traded (args ret : Nat) (before after : Stack) : Prop where
  height : after.size = before.size - args + ret
  below : after.items.drop ret = before.items.drop args

theorem Stack.traded_append {args : Nat} {before after : Stack} {words : List Word}
    (items : after.items = words ++ before.items.drop args) :
    Stack.Traded args words.length before after := by
  refine ⟨?_, ?_⟩
  · rw [size, items, List.length_append, List.length_drop, Nat.add_comm]
    rfl
  · rw [items, List.drop_left]

/-- The word that a waiting frame gets for the result of the other frame. -/
def Continuation.answer (result : Result) : Continuation → Word
  | .call .. => .ofBool result.isSuccess
  | .create address => if result.isSuccess then address.toWord else 0

namespace Machine

variable {ctx : Context} {m m' : Machine} {events : List Event}

/-! ## Results find room -/

theorem resume_push {frame : Frame} (room : frame.stack.size < Stack.limit)
    (continuation : Continuation) (result : Result) :
    ∃ frame', resume frame continuation result = .ok frame' ∧
      frame'.stack.items = continuation.answer result :: frame.stack.items := by
  have fits : ¬Stack.limit ≤ frame.stack.size := Nat.not_le.2 room
  cases continuation with
  | call offset size =>
      simp only [resume, Stack.push, fits, if_false, bind, Except.bind]
      exact ⟨_, rfl, rfl⟩
  | create address =>
      simp only [resume, Stack.push, fits, if_false, bind, Except.bind]
      exact ⟨_, rfl, rfl⟩

theorem resume_height {frame frame' : Frame} {continuation : Continuation} {result : Result}
    (ready : resume frame continuation result = .ok frame') : frame'.stack.size ≤ Stack.limit := by
  rcases Nat.lt_or_ge frame.stack.size Stack.limit with room | full
  · obtain ⟨other, same, items⟩ := resume_push room continuation result
    rw [ready] at same
    cases same
    rw [Stack.size, items]
    exact room
  · -- a full stack refuses the result
    cases continuation with
    | call offset size | create address =>
        simp only [resume, Stack.push, full, if_true, bind, Except.bind] at ready
        cases ready

/-- No stack gets too high. -/
theorem height_invariant (ctx : Context) :
    FrameInvariant ctx fun frame => frame.stack.size ≤ Stack.limit where
  executed _ _ code _ before :=
    (Step.instruction_height ctx code _).mono
      (fun _ _ after => Nat.le_trans (Nat.le_add_right _ _) after)
      fun _ _ after => Nat.le_trans after before
  resumed _ _ _ _ _ ready := resume_height ready

/-- A frame that waits has room for the result. -/
theorem Transition.waiting_room (moved : Transition ctx m m' events)
    (before : ∀ suspended ∈ m.waiting, suspended.frame.stack.size < Stack.limit) :
    ∀ suspended ∈ m'.waiting, suspended.frame.stack.size < Stack.limit := by
  cases moved with
  | suspended fetched ran =>
      have room := (Step.instruction_height _ _ _).of_ok ran
      exact List.forall_mem_cons.2 ⟨room, before⟩
  | resumed ready => exact (List.forall_mem_cons.1 before).2
  | overfull failed => exact (List.forall_mem_cons.1 before).2
  | _ => exact before

theorem height_exec (ctx : Context) (params : Params) (cache : JumpCache) (n : Nat) :
    (∀ frame ∈ (exec ctx n (.start params cache)).openFrames, frame.stack.size ≤ Stack.limit) ∧
      ∀ suspended ∈ (exec ctx n (.start params cache)).waiting,
        suspended.frame.stack.size < Stack.limit := by
  induction n with
  | zero => exact ⟨nofun, nofun⟩
  | succ n ih =>
      obtain ⟨heights, rooms⟩ := ih
      have moved := transition_exec ctx n (.start params cache)
      have empty : ∀ entered, (exec ctx n (.start params cache)).control = .enter entered →
          (Frame.start entered ((exec ctx n (.start params cache)).cache.fetch entered.code).1
            (exec ctx n (.start params cache)).waiting.length).stack.size ≤ Stack.limit :=
        fun _ _ => Nat.zero_le _
      exact ⟨(height_invariant ctx).step moved empty heights, moved.waiting_room rooms⟩

/-! ## Instructions that wait -/

/-- The words of an instruction are in the place of its operands: at once, or when the result of the
frame that it starts has been handed over, whatever that is. -/
def Completes (shape : Shape) (before : Stack) (t : Exec) : Flow → Prop
  | .next => Stack.Traded shape.args shape.ret before t.frame.stack
  | .enter _ continuation => ∀ result, ∃ frame', resume t.frame continuation result = .ok frame' ∧
      frame'.stack.items.head? = some (continuation.answer result) ∧
      Stack.Traded shape.args shape.ret before frame'.stack

theorem completes_of_words {shape : Shape} {before : Stack} {t : Exec} {flow : Flow}
    (room : before.size - shape.args + shape.ret ≤ Stack.limit) {words : List Word}
    (count : words.length + flow.owed = shape.ret)
    (items : t.frame.stack.items = words ++ before.items.drop shape.args) :
    Completes shape before t flow := by
  cases flow with
  | next =>
      have traded := Stack.traded_append items
      rwa [show words.length = shape.ret from count] at traded
  | enter params continuation =>
      intro result
      have height : t.frame.stack.size = words.length + (before.size - shape.args) := by
        rw [Stack.size, items, List.length_append, List.length_drop]
        rfl
      have waits : words.length + 1 = shape.ret := count
      have space : t.frame.stack.size < Stack.limit := by omega
      obtain ⟨frame', ready, pushed⟩ := resume_push space continuation result
      rw [items, ← List.cons_append] at pushed
      have traded := Stack.traded_append pushed
      rw [List.length_cons, waits] at traded
      refine ⟨frame', ready, ?_, traded⟩
      rw [pushed]
      rfl

theorem body_completes (ctx : Context) (pc : Nat) (instruction : Instruction) {s : Exec}
    (enough : instruction.shape.args ≤ s.frame.stack.size)
    (room : s.frame.stack.size - instruction.shape.args + instruction.shape.ret ≤ Stack.limit) :
    Step.Meets (Step.body ctx pc instruction) s
      (fun flow t => Completes instruction.shape s.frame.stack t flow)
      fun halt _ => halt.blamesStack = false := by
  refine (Step.body_trades ctx pc instruction s enough room).mono (fun flow t traded => ?_)
    fun _ _ spared => spared.cause
  obtain ⟨words, count, items⟩ := traded
  exact completes_of_words room count items

/-- The frame that an instruction starts runs for as long as it will; then the instruction is
completed. -/
theorem exec_completes {frame : Frame} {byte : UInt8} {instruction : Instruction} {params : Params}
    {k : Nat} {result : Result} (running : m.control = .running frame)
    (fetched : frame.code[frame.pc]? = some byte)
    (decoded : Instruction.ofByte? byte = some instruction)
    (enters : (next ctx m).control = .enter params) (ends : EndsAfter ctx (next ctx m) k result) :
    ∃ frame', (exec ctx (k + 2) m).control = .running frame' ∧
      Stack.Traded instruction.shape.args instruction.shape.ret frame.stack frame'.stack := by
  obtain ⟨code, continuation, t, fetched', ran, waits⟩ :=
    (step_transition ctx m).starts running enters
  rw [fetched] at fetched'
  cases fetched'
  obtain ⟨charged, words, count, items⟩ := (Step.instruction_trades ctx decoded _).of_ok ran
  obtain ⟨frame', ready, _, traded⟩ := completes_of_words charged.room count items result
  refine ⟨frame', ?_, traded⟩
  rw [exec_succ_first, exec_succ, ends.exec_eq, waits, next_resumed ready]

end Machine

theorem Halt.blamesStack_eq_false {halt : Halt} (cause : halt.blamesStack = false) :
    halt ≠ .trap .stackUnderflow ∧ halt ≠ .trap .outOfStack := by
  constructor
  · rintro rfl
    cases cause
  · rintro rfl
    cases cause

namespace Machine

/-- In every run, no open frame has more than 1024 words on its stack, and a frame that waits can
always be handed a result, which puts one word on its stack.  Where the operands of an instruction
are there, and the room that the table asks for, its work never halts for the stack; when it does
not halt, as many words as the table says stand in the place of its operands, at once or when the
result of the frame that it starts is handed over, and the words below are as they were.  A copy and
an exchange change nothing else.  In a run, the frame that is started ends first, and then its result
completes the instruction. -/
theorem stack_height (ctx : Context) :
    (∀ (params : Params) (cache : JumpCache) (n : Nat),
      (∀ frame ∈ (exec ctx n (.start params cache)).openFrames, frame.stack.size ≤ 1024) ∧
        ∀ suspended ∈ (exec ctx n (.start params cache)).waiting, ∀ result,
          ∃ frame', resume suspended.frame suspended.continuation result = .ok frame' ∧
            frame'.stack.items =
              suspended.continuation.answer result :: suspended.frame.stack.items) ∧
    (∀ (byte : UInt8) (instruction : Instruction) (pc : Nat) (s : Exec),
      Instruction.ofByte? byte = some instruction →
      instruction.shape.args ≤ s.frame.stack.size →
      s.frame.stack.size - instruction.shape.args + instruction.shape.ret ≤ 1024 →
      Step.Meets (Step.body ctx pc instruction) s
        (fun flow t => Completes instruction.shape s.frame.stack t flow)
        fun halt _ => halt ≠ .trap .stackUnderflow ∧ halt ≠ .trap .outOfStack) ∧
    (∀ (n : Fin 16) (pc : Nat) (s : Exec), n.val + 1 ≤ s.frame.stack.size →
      s.frame.stack.size + 1 ≤ 1024 →
      Step.Meets (Step.body ctx pc (.dup n)) s
        (fun flow t => flow = .next ∧ ∃ w, s.frame.stack.items[n.val]? = some w ∧
          t.frame.stack.items = w :: s.frame.stack.items)
        fun _ _ => False) ∧
    (∀ (n : Fin 16) (pc : Nat) (s : Exec), n.val + 2 ≤ s.frame.stack.size →
      Step.Meets (Step.body ctx pc (.swap n)) s
        (fun flow t => flow = .next ∧ ∃ top w, s.frame.stack.items[0]? = some top ∧
          s.frame.stack.items[n.val + 1]? = some w ∧
          t.frame.stack.items = (s.frame.stack.items.set 0 w).set (n.val + 1) top)
        fun _ _ => False) ∧
    ∀ (m : Machine) (frame : Frame) (byte : UInt8) (instruction : Instruction) (params : Params)
      (k : Nat) (result : Result), m.control = .running frame →
      frame.code[frame.pc]? = some byte → Instruction.ofByte? byte = some instruction →
      (next ctx m).control = .enter params → EndsAfter ctx (next ctx m) k result →
      ∃ frame', (exec ctx (k + 2) m).control = .running frame' ∧
        Stack.Traded instruction.shape.args instruction.shape.ret frame.stack frame'.stack := by
  refine ⟨fun params cache n => ?_, fun byte instruction pc s _ enough room => ?_, ?_, ?_, ?_⟩
  · obtain ⟨heights, rooms⟩ := height_exec ctx params cache n
    exact ⟨heights, fun suspended waits result => resume_push (rooms suspended waits) _ result⟩
  · exact (body_completes ctx pc instruction enough room).mono (fun _ _ completes => completes)
      fun _ _ cause => Halt.blamesStack_eq_false cause
  · exact fun n pc s enough room => Step.body_dup ctx pc n enough room
  · exact fun n pc s enough => Step.body_swap ctx pc n enough
  · exact fun m frame byte instruction params k result => exec_completes

/-- A transaction that puts eight zeros on its stack and calls with seven of them as operands. -/
def callAboveZero : Params where
  address := .zero
  sender := .zero
  origin := .zero
  gas := 1000
  code := List.replicate 8 0x3d ++ [0xf1]

/-- A frame with a full stack. -/
@[irreducible] def crowded : Exec where
  frame := { Frame.start callAboveZero (.ofCode []) 0 with stack := ⟨List.replicate 1024 7⟩ }
  overlay := {}
  events := []

/-- When the call has come back, its word is on the stack above the one that was no operand.  On a
full stack there is room for the work of an addition. -/
theorem stack_height_call :
    (∃ frame, (exec (.uniform 0) 14 (.start callAboveZero ∅)).control = .running frame ∧
      frame.stack.size = 2 ∧ frame.stack.items.drop 1 = [0]) ∧
    crowded.frame.stack.size = 1024 ∧
    Step.Meets (Step.body (.uniform 0) 0 .add) crowded
      (fun flow t => Completes ⟨2, 1, .veryLow⟩ crowded.frame.stack t flow)
      fun halt _ => halt ≠ .trap .stackUnderflow ∧ halt ≠ .trap .outOfStack := by
  have next_call : (exec (.uniform 0) 9 (.start callAboveZero ∅)).fetched? = some 0xf1 := by
    decide +kernel
  have heights : (exec (.uniform 0) 9 (.start callAboveZero ∅)).openFrames.map (·.stack.items) =
      [List.replicate 8 0] := by
    decide +kernel
  have enters : (exec (.uniform 0) 10 (.start callAboveZero ∅)).entering?.isSome := by
    decide +kernel
  have ends : EndsAfter (.uniform 0) (exec (.uniform 0) 10 (.start callAboveZero ∅)) 3
      (.stopped 0) := by
    decide +kernel
  have full : crowded.frame.stack.size = 1024 := by
    unfold crowded
    exact List.length_replicate
  obtain ⟨frame, running, fetched⟩ := fetched?_eq_some.1 next_call
  obtain ⟨params, entering⟩ := Option.isSome_iff_exists.1 enters
  have items : frame.stack.items = List.replicate 8 0 := by
    rw [openFrames, running, List.map_cons] at heights
    exact (List.cons.inj heights).1
  obtain ⟨_, body, _, _, resumes⟩ := stack_height (.uniform 0)
  obtain ⟨frame', running', traded⟩ := resumes _ frame 0xf1 (.call .call) params 3 (.stopped 0)
    running fetched rfl (entering?_eq_some.1 entering) ends
  refine ⟨⟨frame', running', ?_, ?_⟩, full, ?_⟩
  · rw [traded.height, Stack.size, items]
    rfl
  · have below : frame'.stack.items.drop 1 = frame.stack.items.drop 7 := traded.below
    rw [below, items]
    rfl
  · apply body 0x01 .add 0 crowded rfl
    · rw [full]
      decide
    · rw [full]
      decide

end Machine

end EvmLedger.Vm
