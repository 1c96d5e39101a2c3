/-
# EvmLedger.Proofs.Step.Cover -- every instruction covers what it touches

The work of an instruction takes its operands, pays for memory to cover the ranges
that they denote, and only then reads or writes.  `body_covers` says so of every
instruction: where it goes on, it has paid the difference and left memory grown to
that very size, with at most the bytes of one of the ranges replaced; where it halts,
it was not admitted, or could not pay, and has not touched memory, or it has paid
already (`Stops`).

A call also leaves a window for the output of the frame that it starts.  The window is
one of its ranges, so it lies inside of memory before that frame runs (`Flow.Inside`).
-/
import EvmLedger.Proofs.Step.Entry
import EvmLedger.Proofs.Step.Range

namespace EvmLedger.Vm

set_option autoImplicit false

/-- What a waiting frame is to write lies inside of its memory. -/
def Continuation.Inside (memory : Memory) : Continuation → Prop
  | .call offset size =>
      size = 0 ∨ offset + size ≤ memory.size ∧ offset + size < Quantity.bound
  | .create _ => True

/-- The same of the frame that is to wait after an instruction. -/
def Flow.Inside (memory : Memory) : Flow → Prop
  | .next => True
  | .enter _ continuation => continuation.Inside memory

namespace Step

variable {α : Type} {ctx : Context} {schedule : Schedule} {ranges : List (Word × Word)}
  {admitted : Prop} {s t u : Exec} {n : Nat} {offset size : Word}

/-! ## Writes to a covered range -/

theorem reach_one (offset size : Word) : reach [(offset, size)] = rangeEnd offset size :=
  Nat.max_eq_left (Nat.zero_le _)

theorem rangeEnd_of_ne (some_bytes : size ≠ 0) :
    rangeEnd offset size = offset.toNat + size.toNat :=
  if_neg some_bytes

theorem usedRange_of_ne (some_bytes : size ≠ 0) :
    usedRange offset size = (offset.toNat, size.toNat) :=
  if_neg some_bytes

theorem usedRange_snd (offset size : Word) : (usedRange offset size).2 = size.toNat := by
  by_cases empty : size = 0
  · rw [usedRange, if_pos empty, empty]
    rfl
  · rw [usedRange_of_ne empty]

theorem writeSlice_overwrites {m : Memory} {bytes : Bytes} (length : bytes.length = size.toNat)
    (covered : reach [(offset, size)] ≤ m.size) (fits : reach [(offset, size)] < Quantity.bound) :
    Memory.Overwritten [(offset, size)] m (m.writeSlice (usedRange offset size).1 bytes) := by
  by_cases empty : size = 0
  · have nothing : bytes = [] := List.eq_nil_of_length_eq_zero (by rw [length, empty]; rfl)
    rw [nothing]
    exact .kept
  · rw [reach_one, rangeEnd_of_ne empty] at covered fits
    rw [usedRange_of_ne empty, Memory.writeSlice_inside (length ▸ covered) (length ▸ fits)]
    exact .written (List.mem_singleton_self _) length covered

theorem copy_overwrites {m : Memory} {start : Nat} {source : Bytes}
    (covered : reach [(offset, size)] ≤ m.size) (fits : reach [(offset, size)] < Quantity.bound) :
    Memory.Overwritten [(offset, size)] m
      (m.copy (usedRange offset size).1 start (usedRange offset size).2 source) := by
  have whole : (source.window start (usedRange offset size).2).length = size.toNat := by
    rw [Bytes.window_length, usedRange_snd]
  rw [Memory.copy_eq_writeSlice]
  exact writeSlice_overwrites whole covered fits

/-- A slice of data that is long enough fills the range. -/
theorem length_take_used {data : Bytes} {start : Nat} (enough : start + size.toNat ≤ data.length) :
    ((data.drop start).take (usedRange offset size).2).length = size.toNat := by
  rw [usedRange_snd, List.length_take, List.length_drop]
  omega

/-! ## After the payment -/

/-- What neither pays nor writes leaves the ranges covered. -/
theorem Covers.followed {x : Step α} (covers : Covers schedule ranges s t)
    (thrifty : Respects Thrifty x) :
    Meets x t (fun _ u => Covers schedule ranges s u) (Stops schedule ranges admitted s) :=
  thrifty.meets (fun _ _ after => covers.thrifty after)
    (fun _ _ after => .paid (covers.thrifty after))

/-- A write to one of the ranges comes last. -/
theorem Grown.writes {f : Memory → Memory} (grown : Grown schedule (reach ranges) s t)
    (after : Thrifty t u)
    (overwrites : ∀ m : Memory, reach ranges ≤ m.size → reach ranges < Quantity.bound →
      Memory.Overwritten ranges m (f m)) :
    Meets (modifyMemory f) u (fun _ v => Covers schedule ranges s v)
      (Stops schedule ranges admitted s) := by
  have covers := grown.covers.thrifty after
  refine ⟨⟨covers.affordable, covers.depth, covers.paid⟩, ?_⟩
  show Memory.Overwritten ranges _ (f u.frame.memory)
  rw [after.memory, grown.memory]
  exact overwrites _ (Memory.le_size_covering _ _) covers.affordable.1

theorem touchMemory_covers {f : Nat × Nat → Step α} (aligned : s.frame.memory.Aligned)
    (rest : ∀ t, Grown schedule (reach [(offset, size)]) s t →
      Meets (f (usedRange offset size)) t
        (fun _ u => Covers schedule [(offset, size)] s u)
        (Stops schedule [(offset, size)] admitted s)) :
    Meets (touchMemory schedule offset size >>= f) (s.without n)
      (fun _ u => Covers schedule [(offset, size)] s u)
      (Stops schedule [(offset, size)] admitted s) := by
  rw [meets_bind_iff]
  refine (touchMemory_meets (s := s.without n) aligned).mono (fun range t touched => ?_)
    (fun halt t failed => ?_)
  · obtain ⟨rfl, grown⟩ := touched
    rw [← reach_one] at grown
    exact rest t grown.of_without
  · obtain ⟨rfl, rfl, poor⟩ := failed
    rw [← reach_one] at poor
    exact .unpaid poor (without_thrifty n s)

theorem copyToMemory_covers {start : Word} {source : Step Bytes}
    (aligned : s.frame.memory.Aligned) (thrifty : Respects Thrifty source) :
    Meets (copyToMemory schedule offset start size source) (s.without n)
      (fun _ u => Covers schedule [(offset, size)] s u)
      (Stops schedule [(offset, size)] admitted s) := by
  refine touchMemory_covers aligned fun t grown => ?_
  have stop : ∀ (halt : Halt) (u : Exec), Thrifty t u →
      Stops schedule [(offset, size)] admitted s halt u :=
    fun _ _ after => .paid (grown.covers.thrifty after)
  refine (pay_respects _).follow (refl_of Thrifty t) stop fun _ u after => ?_
  refine thrifty.follow after stop fun bytes v after => ?_
  exact grown.writes after fun m => copy_overwrites

/-! ## Instructions that touch memory -/

theorem outputData_covers {f : Bytes → Step α} (aligned : s.frame.memory.Aligned)
    (enough : 2 ≤ s.frame.stack.size) (thrifty : ∀ data, Respects Thrifty (f data)) :
    Meets (outputData schedule >>= f) s
      (fun _ t => Covers schedule [(s.frame.operand 0, s.frame.operand 1)] s t)
      (Stops schedule [(s.frame.operand 0, s.frame.operand 1)] admitted s) := by
  unfold outputData
  simp only [bind_assoc]
  show Meets _ (s.without 0) _ _
  refine pop_without (by omega) ?_
  refine pop_without (by omega) ?_
  refine touchMemory_covers aligned fun t grown => ?_
  refine grown.covers.followed ?_
  exact .bind (readMemory_respects _ _) thrifty

theorem log_covers (count : Nat) (aligned : s.frame.memory.Aligned)
    (enough : count + 2 ≤ s.frame.stack.size) :
    Meets (log schedule count) s
      (fun _ t => Covers schedule [(s.frame.operand 0, s.frame.operand 1)] s t)
      (Stops schedule [(s.frame.operand 0, s.frame.operand 1)]
        (s.frame.params.isStatic = false) s) := by
  unfold log
  rw [meets_bind_iff, meets_requireMutable]
  refine ⟨fun _ => ?_, fun fixed => .refused fixed (refl_of Thrifty s)⟩
  show Meets _ (s.without 0) _ _
  refine pop_without (by omega) ?_
  refine pop_without (by omega) ?_
  refine popMany_without (by omega) fun topics => ?_
  refine touchMemory_covers aligned fun t grown => ?_
  refine grown.covers.followed ?_
  refine .bind (pay_respects _) fun _ => .bind (readMemory_respects _ _) fun data => ?_
  exact .bind params_respects fun self => modifyOverlay_respects _

/-- The bounds of the return data are checked before anything else is done with the operands. -/
theorem copyReturnData_without (enough : 3 ≤ s.frame.stack.size) {next : Unit → Exec → Prop}
    {halted : Halt → Exec → Prop}
    (missing : rangeStart? s.frame.returnData.length (s.frame.operand 1) (s.frame.operand 2) = none →
      halted (.trap .returnDataOutOfBounds) (s.without 3))
    (found : ∀ start,
      rangeStart? s.frame.returnData.length (s.frame.operand 1) (s.frame.operand 2) = some start →
        Meets (do
            let (target, size) ← touchMemory schedule (s.frame.operand 0) (s.frame.operand 2)
            pay (schedule.copyCost size)
            modifyMemory fun m =>
              m.writeSlice target ((s.frame.returnData.drop start).take size))
          (s.without 3) next halted) :
    Meets (copyReturnData schedule) s next halted := by
  unfold copyReturnData
  show Meets _ (s.without 0) _ _
  refine pop_without (by omega) ?_
  refine pop_without (by omega) ?_
  refine pop_without (by omega) ?_
  rw [meets_bind_iff, meets_get]
  dsimp only
  split
  · exact missing ‹_›
  · exact found _ ‹_›

theorem copyReturnData_covers (aligned : s.frame.memory.Aligned)
    (enough : 3 ≤ s.frame.stack.size) :
    Meets (copyReturnData schedule) s
      (fun _ t => Covers schedule [(s.frame.operand 0, s.frame.operand 2)] s t)
      (Stops schedule [(s.frame.operand 0, s.frame.operand 2)]
        (rangeStart? s.frame.returnData.length (s.frame.operand 1) (s.frame.operand 2) ≠ none)
        s) := by
  refine copyReturnData_without enough
    (fun missing => .refused (fun there => there missing) (without_thrifty 3 s)) fun start found => ?_
  obtain ⟨-, -, there⟩ := rangeStart?_eq_some.1 found
  refine touchMemory_covers aligned fun t grown => ?_
  refine (pay_respects _).follow (refl_of Thrifty t) (fun _ _ after => ?_) fun _ u after => ?_
  · exact .paid (grown.covers.thrifty after)
  · exact grown.writes after fun m => writeSlice_overwrites (length_take_used there)

theorem create_covers (kind : CreateKind) (aligned : s.frame.memory.Aligned)
    (enough : 0 + saltOperands kind + 3 ≤ s.frame.stack.size) :
    Meets (create ctx kind) s
      (fun _ t => Covers ctx.schedule [(s.frame.operand 1, s.frame.operand 2)] s t)
      (Stops ctx.schedule [(s.frame.operand 1, s.frame.operand 2)]
        (s.frame.params.isStatic = false) s) := by
  unfold create
  rw [meets_bind_iff, meets_requireMutable]
  refine ⟨fun _ => ?_, fun fixed => .refused fixed (refl_of Thrifty s)⟩
  show Meets _ (s.without 0) _ _
  refine pop_without (by omega) ?_
  refine pop_without (by omega) ?_
  refine pop_without (by omega) ?_
  refine createSalt_without (by omega) fun salt => ?_
  refine touchMemory_covers aligned fun t grown => ?_
  refine grown.covers.followed ?_
  refine .bind (pay_respects _) fun _ => .bind (readMemory_respects _ _) fun initCode => ?_
  refine .bind (forward_respects _ _) fun forwarded => .bind params_respects fun self => ?_
  refine .bind .get fun now => .bind (mayEnter_respects _ _ _ _) fun allowed => ?_
  refine .ite ?_ (giveUp_respects takeBack_thrifty rfl _)
  exact .bind (newAddress_respects _ _ _ _ _) fun address => .pure _

theorem reach_two (offset size offset' size' : Word) :
    reach [(offset, size), (offset', size')] =
      max (rangeEnd offset size) (rangeEnd offset' size') := by
  rw [reach, reach_one]

/-- Two ranges are paid for at once, up to the further end. -/
theorem growBoth_covers {offset' size' : Word} {f : Step α} {next : α → Exec → Prop}
    (aligned : s.frame.memory.Aligned) (same : ranges = [(offset, size), (offset', size')])
    (rest : ∀ t, Grown schedule (reach ranges) s t →
      Meets f t next (Stops schedule ranges admitted s)) :
    Meets (do
        let stop ← extent offset size
        let stop' ← extent offset' size'
        growMemory schedule (max stop stop')
        f)
      (s.without n) next (Stops schedule ranges admitted s) := by
  have furthest : reach ranges = max (rangeEnd offset size) (rangeEnd offset' size') := by
    rw [same, reach_two]
  have poor : ¬reach ranges < Quantity.bound →
      Stops schedule ranges admitted s .outOfGas (s.without n) :=
    fun beyond => .unpaid (fun affordable => beyond affordable.1) (without_thrifty n s)
  refine extent_bind (fun fits => ?_) fun beyond => poor (by omega)
  refine extent_bind (fun fits' => ?_) fun beyond => poor (by omega)
  rw [← furthest, meets_bind_iff]
  refine (growMemory_meets (s := s.without n) aligned (by omega)).mono (fun _ t grown => ?_)
    (fun halt t failed => ?_)
  · exact rest t grown.of_without
  · obtain ⟨rfl, rfl, unpaid⟩ := failed
    exact .unpaid unpaid (without_thrifty n s)

/-- The window for an output that is one of the ranges lies inside of memory. -/
theorem Covers.inside (covers : Covers schedule ranges s t) (among : (offset, size) ∈ ranges) :
    (Continuation.call offset.low size.low).Inside t.frame.memory := by
  have covered : rangeEnd offset size ≤ t.frame.memory.size := by
    rw [covers.memory.size_eq]
    exact Nat.le_trans (rangeEnd_le_reach among) (Memory.le_size_covering _ _)
  have fits := Nat.lt_of_le_of_lt (rangeEnd_le_reach among) covers.affordable.1
  by_cases empty : size = 0
  · rw [empty]
    exact .inl rfl
  · rw [rangeEnd_of_ne empty] at covered fits
    rw [low_eq (by omega), low_eq (by omega)]
    exact .inr ⟨covered, fits⟩

theorem giveUp_next (event : Event) (forwarded : Nat) :
    Meets (giveUp event forwarded) s (fun flow _ => flow = .next) fun _ _ => True := by
  refine meets_bind_of_forall fun _ _ => meets_bind_of_forall fun _ _ => ?_
  exact meets_bind_of_forall fun _ _ => rfl

theorem Covers.giveUp {event : Event} {forwarded : Nat} (covers : Covers schedule ranges s t)
    (plain : event.isPlain = true) :
    Meets (giveUp event forwarded) t
      (fun flow u => Covers schedule ranges s u ∧ flow.Inside u.frame.memory)
      (Stops schedule ranges admitted s) := by
  have ends :=
    (giveUp_respects takeBack_thrifty plain forwarded t).and (giveUp_next event forwarded)
  refine ends.mono (fun flow u ended => ?_) (fun halt u ended => ?_)
  · obtain ⟨after, rfl⟩ := ended
    exact ⟨covers.thrifty after, trivial⟩
  · exact .paid (covers.thrifty ended.1)

theorem not_admitted_call {frame : Frame} {kind : CallKind}
    (moves : frame.params.isStatic = true ∧ kind = .call ∧
      (if valueOperands kind = 1 then frame.operand 2 else 0) ≠ 0) :
    ¬Admitted frame (.call kind) := by
  obtain ⟨fixed, rfl, value⟩ := moves
  exact fun admitted => admitted ⟨fixed, value⟩

/-- A call pays for both of its ranges at once, and the window that it leaves is one of them. -/
theorem call_covers (kind : CallKind) (aligned : s.frame.memory.Aligned)
    (enough : 4 + valueOperands kind + 2 ≤ s.frame.stack.size) :
    Meets (call ctx kind) s
      (fun flow t =>
        Covers ctx.schedule ((Instruction.call kind).ranges s.frame.operand) s t ∧
          flow.Inside t.frame.memory)
      (Stops ctx.schedule ((Instruction.call kind).ranges s.frame.operand)
        (Admitted s.frame (.call kind)) s) := by
  unfold call
  show Meets _ (s.without 0) _ _
  refine pop_without (by omega) ?_
  refine pop_without (by omega) ?_
  refine callValue_without (by omega) ?_
  refine pop_without (by omega) ?_
  refine pop_without (by omega) ?_
  refine pop_without (by omega) ?_
  refine pop_without (by omega) ?_
  rw [meets_bind_iff, meets_params, meets_bind_iff, meets_require]
  refine ⟨fun _ => ?_, fun moves => ?_⟩
  swap
  · exact .refused (not_admitted_call (not_not.1 moves)) (without_thrifty _ s)
  refine growBoth_covers aligned rfl fun t grown => ?_
  have stop : ∀ (halt : Halt) (u : Exec), Thrifty t u → Stops ctx.schedule
      ((Instruction.call kind).ranges s.frame.operand) (Admitted s.frame (.call kind)) s halt u :=
    fun _ _ after => .paid (grown.covers.thrifty after)
  refine (callCost_respects _ _ _ _).follow (refl_of Thrifty t) stop fun cost u after => ?_
  refine (pay_respects _).follow after stop fun _ u after => ?_
  refine (forward_respects _ _).follow after stop fun forwarded u after => ?_
  rw [meets_bind_iff, meets_get]
  refine (mayEnter_respects _ _ _ _).follow after stop fun allowed u after => ?_
  split
  · refine (readMemory_respects _ _).follow after stop fun input u after => ?_
    refine (code_respects _ _).follow after stop fun code u after => ?_
    have covers := grown.covers.thrifty after
    exact ⟨covers, covers.inside (List.mem_cons_of_mem _ (List.mem_singleton_self _))⟩
  · exact (grown.covers.thrifty after).giveUp rfl

/-! ## The instruction set -/

/-- An instruction that does not use memory leaves it alone. -/
theorem body_thrifty (ctx : Context) (pc : Nat) {instruction : Instruction}
    (memoryless : instruction.usesMemory = false) :
    Respects Thrifty (body ctx pc instruction) := by
  cases sets : instruction.setsPc with
  | true => exact body_respects_of_setsPc ctx pc sets
  | false =>
      cases reach : instruction.reachesOut with
      | false => exact body_respects_of_memoryless ctx pc reach sets memoryless
      | true =>
          cases instruction with
          | sstore => exact next_respects (storeSlot_respects ctx)
          | selfDestruct => exact next_respects (selfDestruct_respects ctx)
          | log | create | call => cases memoryless
          | _ => cases reach

theorem ranges_of_memoryless {instruction : Instruction} (operand : Nat → Word)
    (memoryless : instruction.usesMemory = false) : instruction.ranges operand = [] := by
  cases instruction with
  | sha3 | callDataCopy | codeCopy | extCodeCopy | returnDataCopy | mload | mstore | mstore8 | log
  | ret | revert | create | call => cases memoryless
  | _ => rfl

/-- Where there are no ranges, there is nothing to pay. -/
theorem Thrifty.covers (aligned : s.frame.memory.Aligned) (thrifty : Thrifty s t) :
    Covers schedule [] s t := by
  have grown : Grown schedule (reach []) s t := thrifty.grown aligned (Nat.zero_le _) (by decide)
  exact grown.covers

/-- Calls apart, nothing that may follow an instruction is to write to the memory of the frame. -/
theorem Onward.inside {instruction : Instruction} {flow : Flow}
    (onward : Onward ctx s instruction flow) (home : ∀ kind, instruction ≠ .call kind)
    (memory : Memory) : flow.Inside memory := by
  cases onward with
  | next => trivial
  | call kind => exact absurd rfl (home kind)
  | create => trivial

/-- Calls apart, an instruction first covers the ranges that it touches, or halts. -/
theorem body_covers_ranges (ctx : Context) (pc : Nat) {instruction : Instruction}
    (home : ∀ kind, instruction ≠ .call kind) (aligned : s.frame.memory.Aligned)
    (enough : instruction.shape.args ≤ s.frame.stack.size) :
    Meets (body ctx pc instruction) s
      (fun _ t => Covers ctx.schedule (instruction.ranges s.frame.operand) s t)
      (Stops ctx.schedule (instruction.ranges s.frame.operand)
        (Admitted s.frame instruction) s) := by
  cases uses : instruction.usesMemory with
  | false =>
      rw [ranges_of_memoryless s.frame.operand uses]
      refine (body_thrifty ctx pc uses).meets (fun _ t after => ?_) fun _ t after => ?_
      · exact after.covers aligned
      · exact .paid (after.covers aligned)
  | true =>
      cases instruction with
      | sha3 =>
          have two : 2 ≤ s.frame.stack.size := enough
          refine meets_next.2 ?_
          show Meets _ (s.without 0) _ _
          refine pop_without (by omega) ?_
          refine pop_without (by omega) ?_
          refine touchMemory_covers aligned fun t grown => grown.covers.followed ?_
          refine .bind (pay_respects _) fun _ => .bind (readMemory_respects _ _) fun data => ?_
          exact push_respects _
      | ret | revert =>
          exact meets_next.2 (outputData_covers aligned enough fun _ => .throw _)
      | log count => exact meets_next.2 (log_covers _ aligned enough)
      | callDataCopy | codeCopy =>
          have three : 3 ≤ s.frame.stack.size := enough
          refine meets_next.2 ?_
          show Meets _ (s.without 0) _ _
          refine pop_without (by omega) ?_
          refine pop_without (by omega) ?_
          refine pop_without (by omega) ?_
          exact copyToMemory_covers aligned (.bind params_respects fun self => .pure _)
      | extCodeCopy =>
          have four : 4 ≤ s.frame.stack.size := enough
          refine meets_next.2 ?_
          show Meets _ (s.without 0) _ _
          refine pop_without (by omega) ?_
          refine pop_without (by omega) ?_
          refine pop_without (by omega) ?_
          refine pop_without (by omega) ?_
          exact copyToMemory_covers aligned (code_respects _ _)
      | returnDataCopy => exact meets_next.2 (copyReturnData_covers aligned enough)
      | mload =>
          have one : 1 ≤ s.frame.stack.size := enough
          refine meets_next.2 ?_
          show Meets _ (s.without 0) _ _
          refine pop_without (by omega) ?_
          refine touchMemory_covers aligned fun t grown => grown.covers.followed ?_
          exact .bind .get fun now => push_respects _
      | mstore =>
          have two : 2 ≤ s.frame.stack.size := enough
          refine meets_next.2 ?_
          show Meets _ (s.without 0) _ _
          refine pop_without (by omega) ?_
          refine pop_without (by omega) ?_
          refine touchMemory_covers aligned fun t grown => ?_
          refine grown.writes (refl_of Thrifty t) fun m => ?_
          exact writeSlice_overwrites (Bytes.ofNat_length _ _)
      | mstore8 =>
          have two : 2 ≤ s.frame.stack.size := enough
          refine meets_next.2 ?_
          show Meets _ (s.without 0) _ _
          refine pop_without (by omega) ?_
          refine pop_without (by omega) ?_
          refine touchMemory_covers aligned fun t grown => ?_
          refine grown.writes (refl_of Thrifty t) fun m => ?_
          exact writeSlice_overwrites rfl
      | create kind =>
          refine create_covers kind aligned ?_
          cases kind <;> exact enough
      | call kind => exact absurd rfl (home kind)
      | _ => cases uses

/-- The work of an instruction first covers the ranges that it touches, or halts. -/
theorem body_covers (ctx : Context) (pc : Nat) (instruction : Instruction)
    (aligned : s.frame.memory.Aligned) (enough : instruction.shape.args ≤ s.frame.stack.size) :
    Meets (body ctx pc instruction) s
      (fun flow t =>
        Covers ctx.schedule (instruction.ranges s.frame.operand) s t ∧
          flow.Inside t.frame.memory)
      (Stops ctx.schedule (instruction.ranges s.frame.operand)
        (Admitted s.frame instruction) s) := by
  by_cases home : ∀ kind, instruction ≠ .call kind
  · have covers := body_covers_ranges ctx pc home aligned enough
    have ends := covers.and (body_onward pc instruction)
    refine ends.mono (fun flow t ended => ?_) (fun _ _ ended => ended.1)
    exact ⟨ended.1, ended.2.inside home _⟩
  · obtain ⟨kind, calls⟩ := not_forall.1 home
    obtain rfl := not_not.1 calls
    exact call_covers kind aligned (args_call kind ▸ enough)

/-! ## Whole instructions -/

/-- The running frame has paid the difference of the prices of its memory before and after, and no
other frame has paid. -/
structure Priced (schedule : Schedule) (s t : Exec) : Prop where
  depth : t.frame.depth = s.frame.depth
  aligned : t.frame.memory.Aligned
  words : s.frame.memory.words ≤ t.frame.memory.words
  paid : ∀ depth, paidAt depth t.events = paidAt depth s.events +
    if depth = s.frame.depth then
      schedule.memoryCost t.frame.memory.words - schedule.memoryCost s.frame.memory.words
    else 0

theorem Covers.priced (covers : Covers schedule ranges s t) (aligned : s.frame.memory.Aligned) :
    Priced schedule s t := by
  have same := covers.memory.size_eq
  have words := Memory.words_of_size_eq same
  have covering := Memory.words_covering aligned (reach ranges)
  refine ⟨covers.depth, ?_, ?_, fun depth => ?_⟩
  · exact (Memory.aligned_covering aligned _).of_size_eq same
  · rw [words, covering]
    exact Nat.le_max_left _ _
  · rw [words, covering]
    exact covers.paid depth

theorem Thrifty.priced (thrifty : Thrifty s t) (aligned : s.frame.memory.Aligned) :
    Priced schedule s t :=
  (thrifty.covers aligned).priced aligned

theorem Stops.priced {halt : Halt} (stops : Stops schedule ranges admitted s halt t)
    (aligned : s.frame.memory.Aligned) : Priced schedule s t := by
  cases stops with
  | refused out thrifty => exact thrifty.priced aligned
  | unpaid poor thrifty => exact thrifty.priced aligned
  | paid covers => exact covers.priced aligned

theorem Thrifty.then_priced (thrifty : Thrifty s t) (priced : Priced schedule t u) :
    Priced schedule s u := by
  refine ⟨priced.depth.trans thrifty.depth, priced.aligned, ?_, fun depth => ?_⟩
  · rw [← thrifty.memory]
    exact priced.words
  · rw [priced.paid, thrifty.paid, thrifty.depth, thrifty.memory]

/-- An instruction that is ready covers the ranges that it touches, or halts; one that is not does
nothing. -/
theorem instruction_covers (ctx : Context) {byte : UInt8} {instruction : Instruction}
    (decoded : Instruction.ofByte? byte = some instruction) (aligned : s.frame.memory.Aligned) :
    Meets (Step.instruction ctx byte) s
      (fun flow t => flow.Inside t.frame.memory ∧
        Covers ctx.schedule (instruction.ranges s.frame.operand)
          (s.begun byte (ctx.schedule.classPrice instruction.shape.tier)) t)
      (fun halt t =>
        ¬Ready ctx.schedule instruction.shape s.frame ∧ Thrifty s t ∨
          Stops ctx.schedule (instruction.ranges s.frame.operand)
            (Admitted s.frame instruction)
            (s.begun byte (ctx.schedule.classPrice instruction.shape.tier)) halt t) := by
  have admitted : ∀ price, Admitted (s.frame.begun price) instruction ↔
      Admitted s.frame instruction := by
    intro price
    cases instruction with
    | call kind => cases kind <;> exact Iff.rfl
    | _ => exact Iff.rfl
  refine instruction_meets decoded (fun ready => ?_) fun halt barred => .inl ⟨barred.not_ready, ?_⟩
  · have covers := body_covers ctx s.frame.pc instruction
      (s := s.begun byte (ctx.schedule.classPrice instruction.shape.tier)) aligned ready.operands
    refine covers.mono (fun flow t ended => ⟨ended.2, ended.1⟩) fun halt t stops => .inr ?_
    rw [← admitted (ctx.schedule.classPrice instruction.shape.tier)]
    exact stops
  · exact announced_related Thrifty byte s

/-- An instruction that goes on has grown memory to cover its ranges, and has written to one of them
at most; one that halts may also have left memory alone. -/
theorem instruction_overwrites (ctx : Context) {byte : UInt8} {instruction : Instruction}
    (decoded : Instruction.ofByte? byte = some instruction) (aligned : s.frame.memory.Aligned) :
    Meets (Step.instruction ctx byte) s
      (fun _ t => Memory.Overwritten (instruction.ranges s.frame.operand)
        (s.frame.memory.covering (reach (instruction.ranges s.frame.operand))) t.frame.memory)
      (fun _ t => t.frame.memory = s.frame.memory ∨
        Memory.Overwritten (instruction.ranges s.frame.operand)
          (s.frame.memory.covering (reach (instruction.ranges s.frame.operand))) t.frame.memory) := by
  refine (instruction_covers ctx decoded aligned).mono (fun flow t ended => ended.2.memory) ?_
  rintro halt t (⟨-, thrifty⟩ | stops)
  · exact .inl thrifty.memory
  · cases stops with
    | refused out thrifty => exact .inl thrifty.memory
    | unpaid poor thrifty => exact .inl thrifty.memory
    | paid covers => exact .inr covers.memory

/-- Whatever byte is executed, what memory grows by is paid for. -/
theorem instruction_priced (ctx : Context) (byte : UInt8) (aligned : s.frame.memory.Aligned) :
    Meets (Step.instruction ctx byte) s
      (fun flow t => Priced ctx.schedule s t ∧ flow.Inside t.frame.memory)
      (fun _ t => Priced ctx.schedule s t) := by
  cases decoded : Instruction.ofByte? byte with
  | none =>
      exact instruction_unknown decoded ((announced_related Thrifty byte s).priced aligned)
  | some instruction =>
      refine (instruction_covers ctx decoded aligned).mono (fun flow t ended => ?_)
        (fun halt t ended => ?_)
      · obtain ⟨inside, covers⟩ := ended
        exact ⟨(begun_related Thrifty byte _ s).then_priced (covers.priced aligned), inside⟩
      · rcases ended with ⟨-, thrifty⟩ | stops
        · exact thrifty.priced aligned
        · exact (begun_related Thrifty byte _ s).then_priced (stops.priced aligned)

end Step

end EvmLedger.Vm
