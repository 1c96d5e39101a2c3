/-
# EvmLedger.Proofs.Machine.ControlFlow -- only instructions are executed

The bytes behind a push are data, and data may look like instructions.  Two parts
of the machine step over it on their own: the scan that makes jump tables, and
the push itself.  As they agree on its length, a frame that begins at the start
of its code goes from boundary to boundary, whether it falls through, jumps or
waits for another frame (`sound_invariant`), and never gets into push data.
-/
import EvmLedger.Proofs.JumpTable
import EvmLedger.Proofs.Machine.Frames
import EvmLedger.Proofs.Machine.Waiting
import EvmLedger.Proofs.Step.Counter

namespace EvmLedger.Vm

set_option autoImplicit false

/-- A frame that executes the code it was started with, and whose program counter is at an
instruction of that code, or behind the last one, if its jump table is that of the code. -/
structure Frame.Sound (frame : Frame) : Prop where
  code : frame.code = frame.params.code.toArray
  boundary : frame.Genuine → Boundary frame.params.code frame.pc

namespace Frame.Sound

variable {frame later : Frame}

/-- A frame that has not started is at its first instruction. -/
theorem start (params : Params) (jumps : JumpTable) (depth : Nat) :
    (Frame.start params jumps depth).Sound :=
  ⟨rfl, fun _ => .start⟩

/-- A frame that goes on keeps its code and its table, and so it is its counter that counts. -/
theorem moved (sound : frame.Sound) (continues : frame.Continues later)
    (boundary : frame.Genuine → Boundary frame.params.code later.pc) : later.Sound := by
  refine ⟨?_, fun genuine => ?_⟩
  · rw [continues.code, continues.params]
    exact sound.code
  · unfold Genuine at genuine
    rw [continues.jumps, continues.params] at genuine
    rw [continues.params]
    exact boundary genuine

theorem steady (sound : frame.Sound) (continues : frame.Continues later)
    (pc : later.pc = frame.pc) : later.Sound := by
  refine sound.moved continues fun genuine => ?_
  rw [pc]
  exact sound.boundary genuine

/-- Behind an instruction there is the next one. -/
theorem passed {byte : UInt8} (sound : frame.Sound) (fetched : frame.code[frame.pc]? = some byte)
    (continues : frame.Continues later) (pc : later.pc = frame.pc + 1 + Opcode.pushBytes byte) :
    later.Sound := by
  refine sound.moved continues fun genuine => ?_
  rw [sound.code, List.getElem?_toArray] at fetched
  rw [pc]
  exact (sound.boundary genuine).next fetched

/-- A jump leads to an instruction. -/
theorem jumped {target : Word} (sound : frame.Sound) (continues : frame.Continues later)
    (found : frame.jumps.target? target = some later.pc) : later.Sound := by
  refine sound.moved continues fun genuine => ?_
  rw [genuine] at found
  exact (target?_ofCode_eq_some.1 found).2.2

end Frame.Sound

namespace Machine

/-- A frame that takes over a result stays where it is. -/
theorem pc_resume {frame frame' : Frame} {continuation : Continuation} {result : Result}
    (ready : resume frame continuation result = .ok frame') : frame'.pc = frame.pc := by
  cases continuation with
  | call offset size | create address =>
      simp only [resume, bind, Except.bind] at ready
      split at ready
      · cases ready
      · cases ready
        rfl

/-- Frames stay sound. -/
theorem sound_invariant (ctx : Context) : FrameInvariant ctx Frame.Sound where
  executed frame overlay code fetched sound := by
    refine (Step.instruction_counter ctx _ code).mono (fun _ t after => ?_) (fun _ t after => ?_)
    · rcases after with passed | ⟨continues, target, found⟩
      · exact sound.passed fetched passed.frame passed.pc
      · exact sound.jumped continues found
    · rcases after with steady | passed
      · exact sound.steady steady.frame steady.pc
      · exact sound.passed fetched passed.frame passed.pc
  resumed _ _ _ _ sound ready := sound.steady (resume_eq_ok ready).1 (pc_resume ready)

/-- All frames of a run are sound. -/
theorem sound_exec (ctx : Context) (params : Params) (cache : JumpCache) (n : Nat) :
    ∀ frame ∈ (exec ctx n (.start params cache)).openFrames, frame.Sound := by
  induction n with
  | zero => nofun
  | succ n ih =>
      have moved := transition_exec ctx n (.start params cache)
      exact (sound_invariant ctx).step moved (fun entered _ => .start entered _ _) ih

/-- What comes of a push that is executed next. -/
theorem next_push {ctx : Context} {m : Machine} {frame : Frame} {byte : UInt8}
    (running : m.control = .running frame) (fetched : frame.code[frame.pc]? = some byte)
    (data : 0 < Opcode.pushBytes byte) :
    (next ctx m).control = .running { frame with
        pc := frame.pc + 1 + Opcode.pushBytes byte
        gas := frame.gas - ctx.schedule.tiers.veryLow
        stack := ⟨frame.dataWord (Opcode.pushBytes byte) :: frame.stack.items⟩ } ∨
      ((next ctx m).control = .halting frame (.trap .outOfStack) ∧
        Stack.limit ≤ frame.stack.size) ∨
      ((next ctx m).control = .halting frame .outOfGas ∧
        frame.gas < ctx.schedule.tiers.veryLow) := by
  obtain ⟨scene, control⟩ := m
  cases running
  obtain ⟨n, decoded, length⟩ := exists_push data
  have push := Step.instruction_push ctx (s := ⟨frame, scene.overlay, []⟩) decoded
  cases ran : Step.instruction ctx byte ⟨frame, scene.overlay, []⟩ with
  | ok flow t =>
      obtain ⟨rfl, _, frame_eq⟩ := push.of_ok ran
      left
      rw [next_advanced fetched ran, frame_eq, length]
  | error halt t =>
      obtain ⟨_, frame_eq, ⟨rfl, full⟩ | ⟨rfl, poor⟩⟩ := push.of_error ran
      · rw [next_halted fetched ran, frame_eq]
        exact Or.inr (Or.inl ⟨rfl, full⟩)
      · rw [next_halted fetched ran, frame_eq]
        exact Or.inr (Or.inr ⟨rfl, poor⟩)

/-- What comes of a jump that is executed next, to a destination of the frame's jump table. -/
theorem next_jump {ctx : Context} {m : Machine} {frame : Frame} {target : Word}
    {rest : List Word} {pc : Nat} (running : m.control = .running frame)
    (fetched : frame.code[frame.pc]? = some 0x56)
    (ready : Ready ctx.schedule Instruction.jump.shape frame)
    (items : frame.stack.items = target :: rest) (found : frame.jumps.target? target = some pc) :
    next ctx m = ⟨m.toScene, .running { frame with
      pc := pc
      gas := frame.gas - ctx.schedule.tiers.mid
      stack := ⟨rest⟩ }⟩ := by
  obtain ⟨scene, control⟩ := m
  cases running
  have jump := Step.instruction_jump ctx (s := ⟨frame, scene.overlay, []⟩) ready items found
  cases ran : Step.instruction ctx 0x56 ⟨frame, scene.overlay, []⟩ with
  | ok flow t =>
      obtain ⟨rfl, same, frame_eq⟩ := jump.of_ok ran
      rw [next_advanced fetched ran, frame_eq, same]
  | error halt t => exact (jump.of_error ran).elim

/-- Push data is never executed.  At any time of a run, every open frame runs the code that it was
started with.  A push that is executed puts the bytes behind it on the stack, those past the end of
the code being zero, and goes on behind them, or fails for lack of room or gas.  And the program
counter of a frame is at a boundary of its code, and so not inside push data, as long as its jump
table is that of the code.  So it is for all frames unless two pieces of code that are met have the
same digest; the jump cache may come from earlier runs. -/
theorem control_flow_sound (ctx : Context) (params : Params) (cache : JumpCache) (n : Nat) :
    (∀ frame ∈ (exec ctx n (.start params cache)).openFrames,
        frame.code.toList = frame.params.code ∧
          (frame.jumps = .ofCode frame.code.toList →
            Boundary frame.code.toList frame.pc ∧ ¬PushData frame.code.toList frame.pc)) ∧
      (∀ frame byte, (exec ctx n (.start params cache)).control = .running frame →
        frame.code[frame.pc]? = some byte → 0 < Opcode.pushBytes byte →
        (exec ctx (n + 1) (.start params cache)).control = .running { frame with
            pc := frame.pc + 1 + Opcode.pushBytes byte
            gas := frame.gas - ctx.schedule.tiers.veryLow
            stack := ⟨frame.dataWord (Opcode.pushBytes byte) :: frame.stack.items⟩ } ∨
          ((exec ctx (n + 1) (.start params cache)).control =
              .halting frame (.trap .outOfStack) ∧ Stack.limit ≤ frame.stack.size) ∨
          ((exec ctx (n + 1) (.start params cache)).control = .halting frame .outOfGas ∧
            frame.gas < ctx.schedule.tiers.veryLow)) ∧
      ∀ codes : Set Bytes, codes.InjOn Crypto.keccak → cache.Knows codes →
        (∀ j < n, ∀ entered, (exec ctx j (.start params cache)).control = .enter entered →
          entered.code ∈ codes) →
        (∀ frame ∈ (exec ctx n (.start params cache)).openFrames,
          Boundary frame.code.toList frame.pc ∧ ¬PushData frame.code.toList frame.pc) ∧
        (exec ctx n (.start params cache)).cache.Knows codes := by
  have bounded : ∀ frame ∈ (exec ctx n (.start params cache)).openFrames, frame.Genuine →
      Boundary frame.code.toList frame.pc ∧ ¬PushData frame.code.toList frame.pc := by
    intro frame among genuine
    have sound := sound_exec ctx params cache n frame among
    rw [sound.code, List.toList_toArray]
    exact ⟨sound.boundary genuine, (sound.boundary genuine).not_pushData⟩
  refine ⟨fun frame among => ?_, fun frame byte running fetched data => ?_,
    fun codes apart knows met => ?_⟩
  · have own : frame.code.toList = frame.params.code := by
      rw [(sound_exec ctx params cache n frame among).code, List.toList_toArray]
    refine ⟨own, fun table => bounded frame among ?_⟩
    rw [own] at table
    exact table
  · rw [exec_succ]
    exact next_push running fetched data
  · obtain ⟨genuine, known⟩ := genuine_exec apart knows met
    exact ⟨fun frame among => bounded frame among (genuine frame among), known⟩

end Machine

/-- Code that calls the account 10. -/
def dialling : Bytes :=
  [0x60, 0x00, 0x80, 0x80, 0x80, 0x80, 0x60, 0x0a, 0x61, 0x03, 0xe8, 0xf1]

/-- A transaction that runs some code. -/
def simpleCall (code : Bytes) : Params where
  address := ⟨1⟩
  sender := .zero
  origin := .zero
  gas := 10000
  code := code

/-- Code that ends in the middle of a push of three bytes, one of which looks like a jump
destination. -/
def truncated : Bytes := [0x62, 0x5b]

/-- Code that calls the account 10 and then jumps over a byte of push data that looks like a jump
destination. -/
def hopping : Bytes := dialling ++ [0x60, 0x11, 0x56, 0x60, 0x5b, 0x5b]

/-- The caller is about to jump. -/
theorem hopping_jumps : ∃ frame,
    (Machine.exec (.hosting 0 ⟨10⟩ truncated) 15 (.start (simpleCall hopping) ∅)).control =
        .running frame ∧
      frame.params.code = hopping ∧ frame.pc = 14 ∧ frame.stack.items = [17, 1] ∧
      8 ≤ frame.gas := by
  have seen : (Machine.exec (.hosting 0 ⟨10⟩ truncated) 15
      (.start (simpleCall hopping) ∅)).running?.map (fun frame =>
        (frame.params.code, frame.pc, frame.stack.items, decide (8 ≤ frame.gas))) =
      some (hopping, 14, [17, 1], true) := by
    decide +kernel
  obtain ⟨frame, running, view⟩ := Option.map_eq_some_iff.1 seen
  simp only [Prod.mk.injEq, decide_eq_true_eq] at view
  exact ⟨frame, Machine.running?_eq_some.1 running, view⟩

/-- A call into other code and a jump.  The push at the end of the callee's code reads zeros past the
end and goes on behind it, while the caller waits behind its call; later the caller jumps. -/
theorem control_flow_sound_nested :
    (∀ frame ∈ (Machine.exec (.hosting 0 ⟨10⟩ truncated) 16
        (.start (simpleCall hopping) ∅)).openFrames,
        Boundary frame.code.toList frame.pc) ∧
      ((Machine.exec (.hosting 0 ⟨10⟩ truncated) 11 (.start (simpleCall hopping) ∅)).openFrames.map
        fun frame => (frame.pc, frame.stack.items)) = [(4, [0x5b0000]), (12, [])] ∧
      (Machine.exec (.hosting 0 ⟨10⟩ truncated) 16 (.start (simpleCall hopping) ∅)).openFrames.map
        (·.pc) = [17] := by
  have entered : ∀ j < 16, ∀ entered ∈ (Machine.exec (.hosting 0 ⟨10⟩ truncated) j
      (.start (simpleCall hopping) ∅)).entering?, entered.code ∈ [hopping, truncated] := by
    decide +kernel
  have met : ∀ j < 16, ∀ params, (Machine.exec (.hosting 0 ⟨10⟩ truncated) j
      (.start (simpleCall hopping) ∅)).control = .enter params →
        params.code ∈ {code | code ∈ [hopping, truncated]} :=
    fun j before params enters => entered j before params (Machine.entering?_eq_some.2 enters)
  have digests : ∀ code ∈ [hopping, truncated], ∀ other ∈ [hopping, truncated],
      Crypto.keccak code = Crypto.keccak other → code = other := by
    decide +kernel
  have apart : Set.InjOn Crypto.keccak {code | code ∈ [hopping, truncated]} :=
    fun code met other met' => digests code met other met'
  obtain ⟨-, -, sound⟩ :=
    Machine.control_flow_sound (.hosting 0 ⟨10⟩ truncated) (simpleCall hopping) ∅ 16
  obtain ⟨bounded, -⟩ := sound _ apart (JumpCache.knows_empty _) met
  refine ⟨fun frame among => (bounded frame among).1, by decide +kernel, ?jumps⟩
  case jumps =>
    -- Nothing is found in a hash table by computation: the jump is a law about all tables.
    obtain ⟨frame, running, code, pc, items, gas⟩ := hopping_jumps
    have alone : (Machine.exec (.hosting 0 ⟨10⟩ truncated) 15
        (.start (simpleCall hopping) ∅)).waiting.length = 0 := by
      decide +kernel
    have among : frame ∈ (Machine.exec (.hosting 0 ⟨10⟩ truncated) 15
        (.start (simpleCall hopping) ∅)).openFrames := by
      rw [Machine.openFrames, running]
      exact List.mem_cons_self ..
    have found : frame.jumps.target? 17 = some 17 := by
      obtain ⟨genuine, -⟩ := Machine.genuine_exec (n := 15) apart (JumpCache.knows_empty _)
        fun j before => met j (Nat.lt_succ_of_lt before)
      rw [genuine frame among, code]
      exact target?_ofCode_eq_some.2 ⟨rfl, mem_destinations_iff.1 (by decide)⟩
    have fetched : frame.code[frame.pc]? = some 0x56 := by
      rw [(Machine.sound_exec _ _ _ _ frame among).code, code, pc]
      rfl
    have ready : Ready Schedule.frontier Instruction.jump.shape frame := by
      have two : frame.stack.size = 2 := congrArg List.length items
      refine ⟨?_, ?_, gas⟩
      · rw [two]
        decide
      · rw [two]
        decide
    rw [Machine.exec_succ, Machine.next_jump running fetched ready items found, Machine.openFrames,
      List.map_cons, List.length_eq_zero_iff.1 alone]
    rfl

end EvmLedger.Vm
