/-
# EvmLedger.Proofs.Machine.MemoryPrice -- memory is paid for once

A frame pays the price of all of its memory, in pieces: whenever memory grows, the
frame pays the difference of the prices of both sizes, so what it has paid since it was
started is the price of the size that memory has come to, whatever ranges were touched
and in what order (`settled_exec`).  Frames below it may pay nothing in the meantime,
and those above it pay at their own depths.

Writing is never a reason to grow.  An instruction writes to ranges that it has covered
first, and the output of a call is written to a window that was covered before the other
frame ran, and that is still there when it has ended (`Snug`).
-/
import EvmLedger.Proofs.Machine.Frames
import EvmLedger.Proofs.Step.Cover

namespace EvmLedger.Vm

set_option autoImplicit false

/-- Memory after a result was handed over: the output of a call is in its window, as far as it
reaches. -/
def Continuation.landing (result : Result) (memory : Memory) : Continuation → Memory
  | .call offset size => ⟨Memory.overwrite memory.data offset (result.output.take size)⟩
  | .create _ => memory

theorem Continuation.size_landing (continuation : Continuation) (result : Result)
    (memory : Memory) : (continuation.landing result memory).size = memory.size := by
  cases continuation with
  | call offset size => exact Memory.size_overwrite _ _ _
  | create address => rfl

namespace Machine

variable {ctx : Context} {m m' : Machine} {events : List Event}

/-! ## Memory between instructions -/

/-- All memory is in whole words, and what waiting frames are to write lies inside of theirs. -/
structure Snug (m : Machine) : Prop where
  aligned : ∀ frame ∈ m.openFrames, frame.memory.Aligned
  inside : ∀ suspended ∈ m.waiting, suspended.continuation.Inside suspended.frame.memory

/-- A result is written inside of memory. -/
theorem resume_memory {frame frame' : Frame} {continuation : Continuation} {result : Result}
    (inside : continuation.Inside frame.memory)
    (ready : resume frame continuation result = .ok frame') :
    frame'.memory = continuation.landing result frame.memory := by
  cases continuation with
  | create address =>
      simp only [resume, bind, Except.bind] at ready
      split at ready
      · cases ready
      · cases ready
        rfl
  | call offset size =>
      simp only [resume, bind, Except.bind] at ready
      split at ready
      · cases ready
      · cases ready
        show (if size = 0 then frame.memory else frame.memory.writeSlice offset _) = _
        split
        · rename_i nothing
          rw [Continuation.landing, nothing]
          rfl
        · rename_i some_bytes
          obtain ⟨covered, fits⟩ := inside.resolve_left some_bytes
          have length := List.length_take_le size result.output
          exact Memory.writeSlice_inside (by omega) (by omega)

theorem Transition.snug (moved : Transition ctx m m' events) (before : Snug m) : Snug m' := by
  obtain ⟨aligned, inside⟩ := before
  cases moved with
  | opened prepared known => exact ⟨List.forall_mem_cons.2 ⟨Memory.aligned_empty, aligned⟩, inside⟩
  | rejected refused => exact ⟨aligned, inside⟩
  | ended exhausted => exact ⟨aligned, inside⟩
  | advanced fetched ran =>
      obtain ⟨current, others⟩ := List.forall_mem_cons.1 aligned
      obtain ⟨priced, -⟩ := (Step.instruction_priced _ _ current).of_ok ran
      exact ⟨List.forall_mem_cons.2 ⟨priced.aligned, others⟩, inside⟩
  | suspended fetched ran =>
      obtain ⟨current, others⟩ := List.forall_mem_cons.1 aligned
      obtain ⟨priced, window⟩ := (Step.instruction_priced _ _ current).of_ok ran
      exact ⟨List.forall_mem_cons.2 ⟨priced.aligned, others⟩,
        List.forall_mem_cons.2 ⟨window, inside⟩⟩
  | halted fetched ran =>
      obtain ⟨current, others⟩ := List.forall_mem_cons.1 aligned
      have priced := (Step.instruction_priced _ _ current).of_error ran
      exact ⟨List.forall_mem_cons.2 ⟨priced.aligned, others⟩, inside⟩
  | closed settled => exact ⟨(List.forall_mem_cons.1 aligned).2, inside⟩
  | resumed ready =>
      obtain ⟨nearest, others⟩ := List.forall_mem_cons.1 aligned
      obtain ⟨window, rest⟩ := List.forall_mem_cons.1 inside
      have same := congrArg Memory.size (resume_memory window ready)
      rw [Continuation.size_landing] at same
      exact ⟨List.forall_mem_cons.2 ⟨nearest.of_size_eq same, others⟩, rest⟩
  | overfull failed => exact ⟨aligned, (List.forall_mem_cons.1 inside).2⟩
  | idle => exact ⟨aligned, inside⟩

theorem snug_exec (ctx : Context) (params : Params) (cache : JumpCache) (n : Nat) :
    Snug (exec ctx n (.start params cache)) := by
  induction n with
  | zero => exact ⟨nofun, nofun⟩
  | succ n ih =>
      rw [exec_succ]
      exact (step_transition ctx _).snug ih

/-! ## What a step is paid for -/

/-- No frame pays for memory when one is started. -/
theorem told_enter {params : Params} (enters : m.control = .enter params) (depth : Nat) :
    paidAt depth (told ctx m) = 0 := by
  obtain ⟨scene, control⟩ := m
  cases enters
  have looks : paidAt depth (prepareEvents scene.overlay.enter params) = 0 := by
    unfold prepareEvents
    split <;> rfl
  simp only [told, step, openFrame]
  cases prepare ctx.host scene.overlay.enter params with
  | ok overlay => simp [looks, Event.payment]
  | error cause => simp [looks, Event.payment, paidAt]

/-- A frame is started without memory. -/
theorem Transition.started_empty {frame : Frame} (moved : Transition ctx m m' events)
    (enters : m.control = .enter frame.params) (opens : m'.openFrames = frame :: m.openFrames) :
    frame.memory.words = 0 := by
  cases moved with
  | opened prepared known =>
      cases opens
      exact Memory.words_empty
  | rejected refused =>
      exact absurd (congrArg List.length opens) (Nat.ne_of_lt (Nat.lt_succ_self _))
  | _ => cases enters

/-- What a step does to the memory of the open frames, and what is paid for it: a frame is started,
or the frames that stay open keep theirs, or the frame on top pays for what its memory grows by. -/
theorem Transition.priced (moved : Transition ctx m m' events) (snug : Snug m)
    (level : ∀ frame below, frame :: below <:+ m.openFrames → frame.depth = below.length)
    (free : ∀ params, m.control = .enter params → ∀ depth, paidAt depth events = 0) :
    (∃ frame, m'.openFrames = frame :: m.openFrames ∧ ∀ depth, paidAt depth events = 0) ∨
      (m'.openFrames <:+ m.openFrames ∧ ∀ depth, paidAt depth events = 0) ∨
      ∃ frame frame' rest, m.openFrames = frame :: rest ∧ m'.openFrames = frame' :: rest ∧
        frame.memory.words ≤ frame'.memory.words ∧
        ∀ depth, paidAt depth events =
          if depth = rest.length then
            ctx.schedule.memoryCost frame'.memory.words - ctx.schedule.memoryCost frame.memory.words
          else 0 := by
  obtain ⟨aligned, inside⟩ := snug
  cases moved with
  | opened prepared known => exact .inl ⟨_, rfl, free _ rfl⟩
  | rejected refused => exact .inr (.inl ⟨List.suffix_refl _, free _ rfl⟩)
  | advanced fetched ran | suspended fetched ran =>
      have depth := level _ _ (List.suffix_refl _)
      obtain ⟨priced, -⟩ :=
        (Step.instruction_priced _ _ (List.forall_mem_cons.1 aligned).1).of_ok ran
      refine .inr (.inr ⟨_, _, _, rfl, rfl, priced.words, fun payer => ?_⟩)
      rw [paidAt_reverse, priced.paid payer, depth]
      exact Nat.zero_add _
  | halted fetched ran =>
      have depth := level _ _ (List.suffix_refl _)
      have priced := (Step.instruction_priced _ _ (List.forall_mem_cons.1 aligned).1).of_error ran
      refine .inr (.inr ⟨_, _, _, rfl, rfl, priced.words, fun payer => ?_⟩)
      rw [paidAt_reverse, priced.paid payer, depth]
      exact Nat.zero_add _
  | closed settled => exact .inr (.inl ⟨List.suffix_cons _ _, fun _ => rfl⟩)
  | resumed ready =>
      have landed := congrArg Memory.size (resume_memory (List.forall_mem_cons.1 inside).1 ready)
      rw [Continuation.size_landing] at landed
      have words := Memory.words_of_size_eq landed
      refine .inr (.inr ⟨_, _, _, rfl, rfl, Nat.le_of_eq words.symm, fun payer => ?_⟩)
      rw [words, Nat.sub_self, ite_self]
      rfl
  | _ => exact .inr (.inl ⟨List.suffix_refl _, fun _ => rfl⟩)

/-- A frame that stays open pays for what its memory grows by. -/
theorem Transition.priced_at (moved : Transition ctx m m' events) (snug : Snug m)
    (level : ∀ frame below, frame :: below <:+ m.openFrames → frame.depth = below.length)
    (free : ∀ params, m.control = .enter params → ∀ depth, paidAt depth events = 0)
    {frame frame' : Frame} {below : List Frame} (before : frame :: below <:+ m.openFrames)
    (after : frame' :: below <:+ m'.openFrames) :
    ctx.schedule.memoryCost frame.memory.words + paidAt below.length events =
      ctx.schedule.memoryCost frame'.memory.words := by
  -- below the top nothing changes and nothing is paid
  have same : ∀ {frames : List Frame}, frame :: below <:+ frames → frame' :: below <:+ frames →
      frame = frame' := by
    intro frames here there
    have within := List.suffix_of_suffix_length_le here there (Nat.le_refl _)
    exact (List.cons.inj (within.eq_of_length rfl)).1
  rcases moved.priced snug level free with
    ⟨start, opens, nothing⟩ | ⟨fewer, nothing⟩ | ⟨g, g', rest, was, is, grows, pays⟩
  · rw [opens, List.suffix_cons_iff] at after
    rcases after with whole | after
    · have more := before.length_le
      rw [← (List.cons.inj whole).2] at more
      exact absurd more (Nat.not_succ_le_self _)
    · rw [nothing, same before after]
      rfl
  · rw [nothing, same before (after.trans fewer)]
    rfl
  · rw [was] at before
    rw [is] at after
    by_cases top : below.length = rest.length
    · cases before.eq_of_length (congrArg (· + 1) top)
      cases after.eq_of_length (congrArg (· + 1) top)
      rw [pays, if_pos rfl, Nat.add_sub_cancel' (ctx.schedule.memoryCost_mono grows)]
    · have inner := (List.suffix_cons_iff.1 before).resolve_left fun whole =>
        top (congrArg List.length (List.cons.inj whole).2)
      have inner' := (List.suffix_cons_iff.1 after).resolve_left fun whole =>
        top (congrArg List.length (List.cons.inj whole).2)
      rw [pays, if_neg top, same inner inner']
      rfl

/-! ## What a frame has paid -/

/-- What the frames at `depth` are told to pay for memory in the first `n` steps of the run of
`m`. -/
def memoryPaid (ctx : Context) (m : Machine) (depth : Nat) : Nat → Nat
  | 0 => 0
  | n + 1 => memoryPaid ctx m depth n + paidAt depth (told ctx (exec ctx n m))

/-- Every frame of a run has memory in whole words, and has paid the price of as many words since it
was started. -/
theorem settled_exec (ctx : Context) (params : Params) (cache : JumpCache) (n : Nat)
    {frame : Frame} {below : List Frame}
    (within : frame :: below <:+ (exec ctx n (.start params cache)).openFrames) :
    ∃ i < n, (exec ctx i (.start params cache)).control = .enter frame.params ∧
      (exec ctx i (.start params cache)).openFrames = below ∧
      Ongoing ctx (exec ctx i (.start params cache)) (n - i) ∧
      memoryPaid ctx (exec ctx i (.start params cache)) below.length (n - i) =
        ctx.schedule.memoryCost frame.memory.words := by
  generalize first : Machine.start params cache = m at within ⊢
  have none_open : m.openFrames = [] := first ▸ rfl
  have snug : ∀ n, Snug (exec ctx n m) := first ▸ snug_exec ctx params cache
  have starts : ∀ n frame, (exec ctx n m).control = .enter frame.params →
      (exec ctx (n + 1) m).openFrames = frame :: (exec ctx n m).openFrames →
      memoryPaid ctx (exec ctx n m) (exec ctx n m).openFrames.length (n + 1 - n) =
        ctx.schedule.memoryCost frame.memory.words := by
    intro n frame enters opens
    rw [exec_succ] at opens
    rw [(step_transition ctx _).started_empty enters opens, Nat.add_sub_cancel_left]
    show 0 + paidAt _ (told ctx (exec ctx n m)) = _
    rw [told_enter enters, Schedule.memoryCost_zero]
  have stays : ∀ i n frame frame', i < n →
      frame :: (exec ctx i m).openFrames <:+ (exec ctx n m).openFrames →
      frame' :: (exec ctx i m).openFrames <:+ (exec ctx (n + 1) m).openFrames →
      memoryPaid ctx (exec ctx i m) (exec ctx i m).openFrames.length (n - i) =
        ctx.schedule.memoryCost frame.memory.words →
      memoryPaid ctx (exec ctx i m) (exec ctx i m).openFrames.length (n + 1 - i) =
        ctx.schedule.memoryCost frame'.memory.words := by
    intro i n frame frame' earlier before after paid
    rw [Nat.succ_sub (Nat.le_of_lt earlier), memoryPaid, paid, ← exec_add,
      Nat.add_sub_cancel' (Nat.le_of_lt earlier)]
    rw [exec_succ] at after
    exact (step_transition ctx _).priced_at (snug n) (fun _ _ => depth_exec none_open n)
      (fun _ enters => told_enter enters) before after
  obtain ⟨i, earlier, enters, rfl, ongoing, paid⟩ := opened_with none_open starts stays n within
  exact ⟨i, earlier, enters, rfl, ongoing, paid⟩

/-! ## Memory that cannot be paid for -/

/-- What is beyond the reach of offsets, or of the gas that is left, cannot be paid for. -/
theorem not_affordable {schedule : Schedule} {frame : Frame} {ranges : List (Word × Word)}
    (beyond : (∃ offset size, (offset, size) ∈ ranges ∧ size ≠ 0 ∧
        2 ^ 64 ≤ offset.toNat + size.toNat) ∨
      frame.gas < schedule.memoryCost (max frame.memory.words (Quantity.wordsFor (reach ranges))) -
        schedule.memoryCost frame.memory.words) :
    ¬Affordable schedule frame (reach ranges) := by
  rintro ⟨fits, enough⟩
  rcases beyond with ⟨offset, size, among, some_bytes, far⟩ | poor
  · have within := rangeEnd_le_reach among
    rw [Step.rangeEnd_of_ne some_bytes] at within
    exact absurd fits (Nat.not_lt.2 (Nat.le_trans far within))
  · exact absurd enough (Nat.not_le.2 poor)

/-- A frame that cannot pay for its memory halts as it was. -/
theorem next_unaffordable {frame : Frame} {byte : UInt8} {instruction : Instruction}
    (running : m.control = .running frame) (fetched : frame.code[frame.pc]? = some byte)
    (decoded : Instruction.ofByte? byte = some instruction) (aligned : frame.memory.Aligned)
    (ready : Ready ctx.schedule instruction.shape frame) (admitted : Admitted frame instruction)
    (poor : ¬Affordable ctx.schedule
      (frame.begun (ctx.schedule.classPrice instruction.shape.tier))
      (reach (instruction.ranges frame.operand))) :
    ∃ frame', (next ctx m).control = .halting frame' .outOfGas ∧ frame'.memory = frame.memory := by
  obtain ⟨scene, control⟩ := m
  cases running
  have covers := Step.instruction_covers ctx (s := ⟨frame, scene.overlay, []⟩) decoded aligned
  cases ran : Step.instruction ctx byte ⟨frame, scene.overlay, []⟩ with
  | ok flow t => exact absurd (covers.of_ok ran).2.affordable poor
  | error halt t =>
      rw [next_halted fetched ran]
      rcases covers.of_error ran with ⟨unready, -⟩ | stops
      · exact absurd ready unready
      · cases stops with
        | refused out thrifty => exact absurd admitted out
        | unpaid _ thrifty => exact ⟨_, rfl, thrifty.memory⟩
        | paid covers => exact absurd covers.affordable poor

/-- A frame without gas comes to nothing. -/
theorem next_outOfGas {frame : Frame} (halting : m.control = .halting frame .outOfGas) :
    (next ctx m).control = .returning .outOfGas := by
  obtain ⟨scene, control⟩ := m
  cases halting
  simp only [next, step, closeFrame, settle, deposit, Halt.result, ite_self]

/-- Memory is paid for once, and never unpaid.  At any time of a run, the memory of every open frame
is a whole number of words, and since the frame was started exactly the price of so many words has
been paid at its depth; what is told to be paid is taken from the gas.  An instruction grows memory
to cover the ranges that it touches, and what it writes replaces bytes of one of them, inside of what
is covered; the output of a call is written inside of memory too.  An instruction that gets to its
ranges and touches one that ends past all offsets, or whose frame has not the gas for the difference
of the prices, ends its frame for lack of gas with memory as it was. -/
theorem memory_paid_once (ctx : Context) (params : Params) (cache : JumpCache) (n : Nat) :
    (∀ frame below, frame :: below <:+ (exec ctx n (.start params cache)).openFrames →
      ∃ words, frame.memory.size = 32 * words ∧
        ∃ i < n, (exec ctx i (.start params cache)).control = .enter frame.params ∧
          (exec ctx i (.start params cache)).openFrames = below ∧
          Ongoing ctx (exec ctx i (.start params cache)) (n - i) ∧
          memoryPaid ctx (exec ctx i (.start params cache)) below.length (n - i) =
            ctx.schedule.memoryCost words) ∧
    (∀ stop s, Step.Meets (Step.growMemory ctx.schedule stop) s
      (fun _ t => t.frame.gas + paidAt s.frame.depth t.events =
        s.frame.gas + paidAt s.frame.depth s.events)
      fun _ t => t = s) ∧
    (∀ frame byte instruction, (exec ctx n (.start params cache)).control = .running frame →
      frame.code[frame.pc]? = some byte → Instruction.ofByte? byte = some instruction →
      Step.Meets (Step.instruction ctx byte)
        ⟨frame, (exec ctx n (.start params cache)).overlay, []⟩
        (fun _ t => Memory.Overwritten (instruction.ranges frame.operand)
          (frame.memory.covering (reach (instruction.ranges frame.operand))) t.frame.memory)
        (fun _ t => t.frame.memory = frame.memory ∨
          Memory.Overwritten (instruction.ranges frame.operand)
            (frame.memory.covering (reach (instruction.ranges frame.operand))) t.frame.memory) ∧
      (frame.memory.covering (reach (instruction.ranges frame.operand))).size =
        32 * max frame.memory.words (Quantity.wordsFor (reach (instruction.ranges frame.operand))) ∧
      (Ready ctx.schedule instruction.shape frame → Admitted frame instruction →
        ((∃ offset size, (offset, size) ∈ instruction.ranges frame.operand ∧ size ≠ 0 ∧
            2 ^ 64 ≤ offset.toNat + size.toNat) ∨
          frame.gas - ctx.schedule.classPrice instruction.shape.tier <
            ctx.schedule.memoryCost (max frame.memory.words
                (Quantity.wordsFor (reach (instruction.ranges frame.operand)))) -
              ctx.schedule.memoryCost frame.memory.words) →
        ∃ frame', (exec ctx (n + 1) (.start params cache)).control = .halting frame' .outOfGas ∧
          frame'.memory = frame.memory ∧
          (exec ctx (n + 2) (.start params cache)).control = .returning .outOfGas)) ∧
    ∀ suspended ∈ (exec ctx n (.start params cache)).waiting, ∀ result frame',
      suspended.continuation.Inside suspended.frame.memory ∧
        (resume suspended.frame suspended.continuation result = .ok frame' →
          frame'.memory = suspended.continuation.landing result suspended.frame.memory ∧
            frame'.memory.size = suspended.frame.memory.size) := by
  have snug := snug_exec ctx params cache n
  refine ⟨fun frame below within => ?_, Step.growMemory_conserves ctx.schedule,
    fun frame byte instruction running fetched decoded => ?_,
    fun suspended waits result frame' => ?_⟩
  · have among := within.subset List.mem_cons_self
    exact ⟨_, snug.aligned frame among, settled_exec ctx params cache n within⟩
  · have aligned := snug.aligned frame (by
      rw [openFrames, running]
      exact List.mem_cons_self)
    refine ⟨Step.instruction_overwrites ctx decoded aligned, Memory.size_covering aligned _,
      fun ready admitted beyond => ?_⟩
    have poor : ¬Affordable ctx.schedule
        (frame.begun (ctx.schedule.classPrice instruction.shape.tier))
        (reach (instruction.ranges frame.operand)) := not_affordable beyond
    obtain ⟨frame', halting, same⟩ :=
      next_unaffordable running fetched decoded aligned ready admitted poor
    rw [← exec_succ] at halting
    exact ⟨frame', halting, same, (exec_succ ctx (n + 1) _).symm ▸ next_outOfGas halting⟩
  · have inside := snug.inside suspended waits
    refine ⟨inside, fun ready => ?_⟩
    have landed := resume_memory inside ready
    exact ⟨landed, landed ▸ suspended.continuation.size_landing result _⟩

/-- A transaction that touches three overlapping ranges, calls an account with a window for eight
bytes of what it returns, and then stores at the greatest word. -/
def overreaching : Params where
  address := .zero
  sender := .zero
  origin := .zero
  gas := 10000
  code := [0x60, 7, 0x60, 31, 0x52, 0x60, 0, 0x51, 0x50, 0x60, 1, 0x60, 100, 0x53] ++
    [0x60, 8, 0x60, 40, 0x60, 0, 0x60, 0, 0x60, 0, 0x60, 7, 0x60, 100, 0xf1] ++
    [0x60, 0, 0x19, 0x52]

/-- A world in which the account that is called returns a word. -/
def obliging : Context := .hosting 0 ⟨7⟩ [0x60, 32, 0x60, 0, 0xf3]

/-- While both frames are open, each has paid for its own memory; the window for the output is there
when it comes; and the last store halts the frame. -/
theorem memory_paid_once_nested :
    (∃ inner outer, (exec obliging 22 (.start overreaching ∅)).openFrames = [inner, outer] ∧
      inner.memory.size = 32 ∧ outer.memory.size = 128 ∧
      (∃ i < 22, (exec obliging i (.start overreaching ∅)).control = .enter inner.params ∧
        memoryPaid obliging (exec obliging i (.start overreaching ∅)) 1 (22 - i) = 3) ∧
      ∃ i < 22, (exec obliging i (.start overreaching ∅)).control = .enter outer.params ∧
        memoryPaid obliging (exec obliging i (.start overreaching ∅)) 0 (22 - i) = 12) ∧
    (exec obliging 23 (.start overreaching ∅)).waiting.map (·.continuation) = [.call 40 8] ∧
    (∀ suspended ∈ (exec obliging 23 (.start overreaching ∅)).waiting, ∀ result frame',
      resume suspended.frame suspended.continuation result = .ok frame' →
        frame'.memory.size = suspended.frame.memory.size) ∧
    ∃ frame, (exec obliging 27 (.start overreaching ∅)).control = .halting frame .outOfGas ∧
      frame.memory.size = 128 ∧
      (exec obliging 28 (.start overreaching ∅)).control = .returning .outOfGas := by
  have sizes : (exec obliging 22 (.start overreaching ∅)).openFrames.map (·.memory.size) =
      [32, 128] := by
    decide +kernel
  have window : (exec obliging 23 (.start overreaching ∅)).waiting.map (·.continuation) =
      [.call 40 8] := by
    decide +kernel
  have next_store : (exec obliging 26 (.start overreaching ∅)).fetched? = some 0x52 := by
    decide +kernel
  have operands : (exec obliging 26 (.start overreaching ∅)).openFrames.map
      (fun frame => (frame.stack.items, frame.gas, frame.memory.size)) =
      [([Word.maximum, 1], 9886, 128)] := by
    decide +kernel
  refine ⟨?_, window, fun suspended waits result frame' ready => ?_, ?_⟩
  · obtain ⟨settled, -⟩ := memory_paid_once obliging overreaching ∅ 22
    obtain ⟨inner, rest, frames, inner_size, others⟩ := List.map_eq_cons_iff.1 sizes
    obtain ⟨outer, last, rfl, outer_size, none_left⟩ := List.map_eq_cons_iff.1 others
    obtain rfl := List.map_eq_nil_iff.1 none_left
    refine ⟨inner, outer, frames, inner_size, outer_size, ?_, ?_⟩
    · obtain ⟨words, size, i, before, enters, -, -, paid⟩ :=
        settled inner [outer] (frames ▸ List.suffix_refl _)
      obtain rfl : words = 1 := by omega
      exact ⟨i, before, enters, paid⟩
    · obtain ⟨words, size, i, before, enters, -, -, paid⟩ :=
        settled outer [] (frames ▸ List.suffix_cons _ _)
      obtain rfl : words = 4 := by omega
      exact ⟨i, before, enters, paid⟩
  · obtain ⟨-, -, -, results⟩ := memory_paid_once obliging overreaching ∅ 23
    exact ((results suspended waits result frame').2 ready).2
  · obtain ⟨frame, running, fetched⟩ := fetched?_eq_some.1 next_store
    obtain ⟨-, -, instructions, -⟩ := memory_paid_once obliging overreaching ∅ 26
    obtain ⟨-, -, unpayable⟩ := instructions frame 0x52 .mstore running fetched rfl
    rw [openFrames, running, List.map_cons] at operands
    have now := (List.cons.inj operands).1
    simp only [Prod.mk.injEq] at now
    obtain ⟨items, gas, size⟩ := now
    have target : frame.operand 0 = Word.maximum := by
      rw [Frame.operand, items]
      rfl
    have ready : Ready obliging.schedule (Instruction.mstore).shape frame := by
      refine ⟨?_, ?_, ?_⟩
      · rw [Stack.size, items]
        decide
      · rw [Stack.size, items]
        decide
      · rw [gas]
        decide
    have far : 2 ^ 64 ≤ (frame.operand 0).toNat + (32 : Word).toNat := by
      rw [target]
      decide
    obtain ⟨frame', halting, same, ended⟩ := unpayable ready trivial
      (.inl ⟨frame.operand 0, 32, List.mem_singleton_self _, by decide, far⟩)
    exact ⟨frame', halting, same ▸ size, ended⟩

end Machine

end EvmLedger.Vm
