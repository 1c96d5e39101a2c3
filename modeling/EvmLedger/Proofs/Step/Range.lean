/-
# EvmLedger.Proofs.Step.Range -- memory is paid for before it is touched

The ranges of memory that an instruction touches are known from its operands
(`Instruction.ranges`).  Growing memory to the end of the furthest one (`reach`) costs
the difference of the prices of both sizes; a frame that cannot pay it, or a range
whose end is no offset, halts the frame with memory as it was (`growMemory_meets`,
`touchMemory_meets`).

What is not a payment or a change of memory is of no interest here, and `Thrifty`
says that there was neither; `Covers` says that memory was paid for and grown, and that
what was written since lies inside one of the ranges.
-/
import EvmLedger.Proofs.Memory.Image
import EvmLedger.Proofs.Schedule
import EvmLedger.Proofs.Step.Height

namespace EvmLedger.Vm

set_option autoImplicit false

/-! ## Ranges -/

/-- The end of a range; an empty range ends at zero wherever it starts. -/
def rangeEnd (offset size : Word) : Nat := if size = 0 then 0 else offset.toNat + size.toNat

/-- The furthest end of several ranges. -/
def reach : List (Word × Word) → Nat
  | [] => 0
  | (offset, size) :: rest => max (rangeEnd offset size) (reach rest)

theorem rangeEnd_le_reach {offset size : Word} {ranges : List (Word × Word)}
    (among : (offset, size) ∈ ranges) : rangeEnd offset size ≤ reach ranges := by
  induction ranges with
  | nil => cases among
  | cons range rest ih =>
      rw [reach]
      rcases List.mem_cons.1 among with rfl | among
      · exact Nat.le_max_left _ _
      · exact Nat.le_trans (ih among) (Nat.le_max_right _ _)

theorem narrow?_eq (w : Word) :
    w.narrow? = if w.toNat < Quantity.bound then some w.toNat else none := rfl

theorem memoryExtent?_eq (offset size : Word) :
    memoryExtent? offset size =
      if rangeEnd offset size < Quantity.bound then some (rangeEnd offset size) else none := by
  unfold memoryExtent? rangeEnd
  by_cases empty : size = 0
  · simp [empty, Quantity.bound]
  · simp only [empty, if_false, narrow?_eq, Quantity.add?]
    by_cases offset_fits : offset.toNat < Quantity.bound
    · by_cases size_fits : size.toNat < Quantity.bound
      · simp only [offset_fits, size_fits, if_true, bind, Option.bind]
      · have beyond : ¬offset.toNat + size.toNat < Quantity.bound := by omega
        simp only [offset_fits, size_fits, beyond, if_true, if_false, bind, Option.bind]
    · have beyond : ¬offset.toNat + size.toNat < Quantity.bound := by omega
      simp only [offset_fits, beyond, if_false, bind, Option.bind]

/-- A range that is found starts at its offset, and its end is a quantity that is not past that of
the data. -/
theorem Step.rangeStart?_eq_some {available start : Nat} {offset size : Word} :
    rangeStart? available offset size = some start ↔
      offset.toNat = start ∧ start + size.toNat < Quantity.bound ∧
        start + size.toNat ≤ available := by
  simp only [rangeStart?, Option.bind_eq_bind, Option.bind_eq_some_iff, Word.narrow?_eq_some,
    Quantity.add?_eq_some]
  constructor
  · rintro ⟨_, ⟨rfl, -⟩, _, ⟨rfl, -⟩, _, ⟨rfl, fits⟩, found⟩
    split at found
    · cases found
      exact ⟨rfl, fits, ‹_›⟩
    · cases found
  · rintro ⟨rfl, fits, inside⟩
    exact ⟨_, ⟨rfl, by omega⟩, _, ⟨rfl, by omega⟩, _, ⟨rfl, fits⟩, if_pos inside⟩

/-- The ranges of memory that an instruction touches, each by offset and size. -/
def Instruction.ranges (operand : Nat → Word) : Instruction → List (Word × Word)
  | .sha3 | .log _ | .ret | .revert => [(operand 0, operand 1)]
  | .callDataCopy | .codeCopy | .returnDataCopy => [(operand 0, operand 2)]
  | .extCodeCopy => [(operand 1, operand 3)]
  | .mload | .mstore => [(operand 0, 32)]
  | .mstore8 => [(operand 0, 1)]
  | .create _ => [(operand 1, operand 2)]
  | .call kind =>
      let first := 2 + Step.valueOperands kind
      [(operand first, operand (first + 1)), (operand (first + 2), operand (first + 3))]
  | _ => []

/-- The operand below so many others. -/
def Frame.operand (frame : Frame) (n : Nat) : Word := frame.stack.items.getD n 0

/-- What an instruction checks before it touches memory. -/
def Admitted (frame : Frame) : Instruction → Prop
  | .log _ | .create _ => frame.params.isStatic = false
  | .call .call => ¬(frame.params.isStatic = true ∧ frame.operand 2 ≠ 0)
  | .returnDataCopy =>
      Step.rangeStart? frame.returnData.length (frame.operand 1) (frame.operand 2) ≠ none
  | _ => True

/-- A frame can pay for its memory to reach to `stop`. -/
def Affordable (schedule : Schedule) (frame : Frame) (stop : Nat) : Prop :=
  stop < Quantity.bound ∧
    schedule.memoryCost (max frame.memory.words (Quantity.wordsFor stop)) -
      schedule.memoryCost frame.memory.words ≤ frame.gas

/-! ## Payments -/

/-- What an event tells to be paid for memory by the frame at `depth`. -/
def Event.payment (depth : Nat) : Event → Nat
  | .memoryPaid payer amount => if payer = depth then amount else 0
  | _ => 0

/-- All that the frame at `depth` is told to pay for memory. -/
def paidAt (depth : Nat) : List Event → Nat
  | [] => 0
  | event :: rest => event.payment depth + paidAt depth rest

@[simp] theorem paidAt_cons (depth : Nat) (event : Event) (events : List Event) :
    paidAt depth (event :: events) = event.payment depth + paidAt depth events := rfl

@[simp] theorem paidAt_append (depth : Nat) (events later : List Event) :
    paidAt depth (events ++ later) = paidAt depth events + paidAt depth later := by
  induction events with
  | nil => simp [paidAt]
  | cons event rest ih => simp [ih, Nat.add_assoc]

@[simp] theorem paidAt_reverse (depth : Nat) (events : List Event) :
    paidAt depth events.reverse = paidAt depth events := by
  induction events with
  | nil => rfl
  | cons event rest ih => simp [ih, paidAt, Nat.add_comm]

theorem payment_of_plain {event : Event} (plain : event.isPlain = true) (depth : Nat) :
    event.payment depth = 0 := by
  cases event with
  | memoryPaid => cases plain
  | _ => rfl

namespace Step

/-- Nothing was paid for memory, and it is as it was. -/
structure Thrifty (s t : Exec) : Prop where
  memory : t.frame.memory = s.frame.memory
  depth : t.frame.depth = s.frame.depth
  paid : ∀ depth, paidAt depth t.events = paidAt depth s.events

instance : Lenient Thrifty where
  refl _ := ⟨rfl, rfl, fun _ => rfl⟩
  trans _ _ _ first second :=
    ⟨second.memory.trans first.memory, second.depth.trans first.depth,
      fun depth => (second.paid depth).trans (first.paid depth)⟩
  stack _ _ := ⟨rfl, rfl, fun _ => rfl⟩
  returnData _ _ := ⟨rfl, rfl, fun _ => rfl⟩
  gas _ _ _ := ⟨rfl, rfl, fun _ => rfl⟩
  report s event plain := by
    refine ⟨rfl, rfl, fun depth => ?_⟩
    rw [paidAt_cons, payment_of_plain plain, Nat.zero_add]

instance (schedule : Schedule) : PriceBlind schedule Thrifty where
  unpriced _ _ _ := by
    refine ⟨rfl, rfl, fun depth => ?_⟩
    rw [paidAt_cons, show Event.payment depth .unpriced = 0 from rfl, Nat.zero_add]

instance : CounterBlind Thrifty where
  pc _ _ := ⟨rfl, rfl, fun _ => rfl⟩

instance : OverlayBlind Thrifty where
  overlay _ _ := ⟨rfl, rfl, fun _ => rfl⟩

theorem takeBack_thrifty (amount : Nat) : Respects Thrifty (takeBack amount) :=
  fun _ => ⟨rfl, rfl, fun _ => rfl⟩

/-- The frame has paid for its memory to reach to `stop`. -/
structure Charged (schedule : Schedule) (stop : Nat) (s t : Exec) : Prop where
  affordable : Affordable schedule s.frame stop
  depth : t.frame.depth = s.frame.depth
  paid : ∀ depth, paidAt depth t.events = paidAt depth s.events +
    if depth = s.frame.depth then
      schedule.memoryCost (max s.frame.memory.words (Quantity.wordsFor stop)) -
        schedule.memoryCost s.frame.memory.words
    else 0

/-- The frame has paid, and its memory covers what it paid for. -/
structure Grown (schedule : Schedule) (stop : Nat) (s t : Exec) : Prop
    extends Charged schedule stop s t where
  memory : t.frame.memory = s.frame.memory.covering stop

/-- The frame has paid for memory to cover several ranges, and then wrote to one of them at most. -/
structure Covers (schedule : Schedule) (ranges : List (Word × Word)) (s t : Exec) : Prop
    extends Charged schedule (reach ranges) s t where
  memory : Memory.Overwritten ranges (s.frame.memory.covering (reach ranges)) t.frame.memory

/-- The ways to halt of an instruction that is to touch some ranges of memory: it is not admitted,
it cannot pay for them, or it has paid. -/
inductive Stops (schedule : Schedule) (ranges : List (Word × Word)) (admitted : Prop) (s : Exec) :
    Halt → Exec → Prop
  | refused {halt : Halt} {t : Exec} (out : ¬admitted) (thrifty : Thrifty s t) :
      Stops schedule ranges admitted s halt t
  | unpaid {t : Exec} (poor : ¬Affordable schedule s.frame (reach ranges)) (thrifty : Thrifty s t) :
      Stops schedule ranges admitted s .outOfGas t
  | paid {halt : Halt} {t : Exec} (covers : Covers schedule ranges s t) :
      Stops schedule ranges admitted s halt t

variable {schedule : Schedule} {ranges : List (Word × Word)} {s t u : Exec} {stop : Nat}

theorem Charged.thrifty (charged : Charged schedule stop s t) (after : Thrifty t u) :
    Charged schedule stop s u :=
  ⟨charged.affordable, after.depth.trans charged.depth,
    fun depth => (after.paid depth).trans (charged.paid depth)⟩

theorem Covers.thrifty (covers : Covers schedule ranges s t) (after : Thrifty t u) :
    Covers schedule ranges s u :=
  ⟨covers.toCharged.thrifty after, after.memory ▸ covers.memory⟩

theorem Grown.covers (grown : Grown schedule (reach ranges) s t) : Covers schedule ranges s t :=
  ⟨grown.toCharged, grown.memory ▸ .kept⟩

/-- Where nothing is to be covered, nothing is paid. -/
theorem Thrifty.grown (aligned : s.frame.memory.Aligned)
    (covered : Quantity.wordsFor stop ≤ s.frame.memory.words) (fits : stop < Quantity.bound)
    (thrifty : Thrifty s t) : Grown schedule stop s t := by
  have same : max s.frame.memory.words (Quantity.wordsFor stop) = s.frame.memory.words := by omega
  refine ⟨⟨⟨fits, ?_⟩, thrifty.depth, fun depth => ?_⟩, ?_⟩
  · rw [same, Nat.sub_self]
    exact Nat.zero_le _
  · rw [thrifty.paid, same, Nat.sub_self, ite_self, Nat.add_zero]
  · rw [thrifty.memory, Memory.covering_of_le aligned covered]

/-! ## Growing memory -/

theorem growMemory_meets (aligned : s.frame.memory.Aligned) (fits : stop < Quantity.bound) :
    Meets (growMemory schedule stop) s (fun _ t => Grown schedule stop s t)
      (fun halt t => halt = .outOfGas ∧ t = s ∧ ¬Affordable schedule s.frame stop) := by
  unfold growMemory
  by_cases nothing : stop = 0
  · subst nothing
    exact (refl_of Thrifty s).grown aligned (Nat.zero_le _) fits
  simp only [nothing, ne_eq, not_false_eq_true, if_true]
  rw [meets_bind_iff, meets_get, Gas.payMemory?_eq]
  by_cases enough :
      schedule.memoryCost (max s.frame.memory.words (Quantity.wordsFor stop)) -
        schedule.memoryCost s.frame.memory.words ≤ s.frame.gas
  · rw [if_pos enough]
    dsimp only
    rw [meets_bind_iff, meets_report, meets_modifyFrame]
    refine ⟨⟨⟨fits, enough⟩, rfl, fun depth => ?_⟩, ?_⟩
    · rw [paidAt_cons, Event.payment, Nat.sub_sub_self enough, Nat.add_comm]
      simp only [eq_comm]
    · rw [Memory.covering, Nat.mul_comm]
  · rw [if_neg enough]
    exact ⟨rfl, rfl, fun affordable => enough affordable.2⟩

/-- What is told of a payment is taken from the gas of the frame. -/
theorem growMemory_conserves (schedule : Schedule) (stop : Nat) (s : Exec) :
    Meets (growMemory schedule stop) s
      (fun _ t => t.frame.gas + paidAt s.frame.depth t.events =
        s.frame.gas + paidAt s.frame.depth s.events)
      (fun _ t => t = s) := by
  unfold growMemory
  split
  · rw [meets_bind_iff, meets_get]
    split
    · rename_i left words paid
      have enough := payMemory?_le paid
      rw [meets_bind_iff, meets_report, meets_modifyFrame, paidAt_cons, Event.payment, if_pos rfl]
      dsimp only
      omega
    · exact rfl
  · exact rfl

/-- The end of a range that could ever be paid for. -/
theorem extent_bind {α : Type} {offset size : Word} {f : Nat → Step α} {next : α → Exec → Prop}
    {halted : Halt → Exec → Prop}
    (fits : rangeEnd offset size < Quantity.bound →
      Meets (f (rangeEnd offset size)) s next halted)
    (beyond : ¬rangeEnd offset size < Quantity.bound → halted .outOfGas s) :
    Meets (extent offset size >>= f) s next halted := by
  unfold extent
  rw [memoryExtent?_eq, meets_bind_iff]
  by_cases addressable : rangeEnd offset size < Quantity.bound
  · rw [if_pos addressable]
    exact fits addressable
  · rw [if_neg addressable]
    exact beyond addressable

/-- A range as it is given to the work of an instruction: an empty range starts at zero. -/
def usedRange (offset size : Word) : Nat × Nat :=
  if size = 0 then (0, 0) else (offset.toNat, size.toNat)

theorem low_eq {w : Word} (fits : w.toNat < Quantity.bound) : w.low = w.toNat :=
  Nat.mod_eq_of_lt fits

/-- To touch a range is to grow memory to its end; an empty range ends at zero, where nothing is to
be grown. -/
theorem touchMemory_meets_iff {offset size : Word} {next : Nat × Nat → Exec → Prop}
    {halted : Halt → Exec → Prop} :
    Meets (touchMemory schedule offset size) s next halted ↔
      (rangeEnd offset size < Quantity.bound →
        Meets (growMemory schedule (rangeEnd offset size)) s
          (fun _ => next (usedRange offset size)) halted) ∧
      (¬rangeEnd offset size < Quantity.bound → halted .outOfGas s) := by
  unfold touchMemory extent
  rw [memoryExtent?_eq, meets_bind_iff]
  by_cases fits : rangeEnd offset size < Quantity.bound
  · rw [if_pos fits]
    simp only [meets_pure, fits, forall_const, not_true_eq_false, false_implies, and_true]
    by_cases empty : size = 0
    · have nothing : rangeEnd offset size = 0 := if_pos empty
      rw [nothing, if_pos rfl, meets_pure, usedRange, if_pos empty]
      rfl
    · have stop_eq : rangeEnd offset size = offset.toNat + size.toNat := if_neg empty
      have positive : 0 < size.toNat := Nat.pos_of_ne_zero fun zero =>
        empty (BitVec.eq_of_toNat_eq zero)
      rw [if_neg (show rangeEnd offset size ≠ 0 by omega), meets_bind_iff, low_eq (by omega),
        low_eq (by omega), usedRange, if_neg empty]
      rfl
  · rw [if_neg fits, meets_throw]
    simp only [fits, false_implies, not_false_eq_true, forall_const, true_and]

theorem touchMemory_meets {offset size : Word} (aligned : s.frame.memory.Aligned) :
    Meets (touchMemory schedule offset size) s
      (fun range t => range = usedRange offset size ∧
        Grown schedule (rangeEnd offset size) s t)
      (fun halt t => halt = .outOfGas ∧ t = s ∧
        ¬Affordable schedule s.frame (rangeEnd offset size)) := by
  refine touchMemory_meets_iff.2 ⟨fun fits => ?_, fun beyond => ?_⟩
  · exact (growMemory_meets aligned fits).mono (fun _ _ grown => ⟨rfl, grown⟩)
      fun _ _ failed => failed
  · exact ⟨rfl, rfl, fun affordable => beyond affordable.1⟩

/-- Growing memory leaves the stack and what memory holds. -/
theorem growMemory_image (schedule : Schedule) (stop : Nat) :
    Meets (growMemory schedule stop) s
      (fun _ t => t.frame.stack = s.frame.stack ∧ t.frame.memory.image = s.frame.memory.image)
      fun halt _ => halt = .outOfGas := by
  unfold growMemory
  split
  · rw [meets_bind_iff, meets_get]
    split
    · exact ⟨rfl, Memory.image_expand _ _⟩
    · rfl
  · exact ⟨rfl, rfl⟩

/-- A range was paid for, and the stack and what memory holds are as they were. -/
structure Reached (range : Nat × Nat) (offset size : Word) (s t : Exec) : Prop
    extends Local s t where
  range_eq : range = usedRange offset size
  addressable : rangeEnd offset size < Quantity.bound
  stack : t.frame.stack = s.frame.stack
  image : t.frame.memory.image = s.frame.memory.image

theorem touchMemory_reached (schedule : Schedule) (offset size : Word) :
    Meets (touchMemory schedule offset size) s (fun range t => Reached range offset size s t)
      fun halt t => halt = .outOfGas ∧ Local s t := by
  have related := touchMemory_respects (R := Local) schedule offset size s
  have range : Meets (touchMemory schedule offset size) s
      (fun range t => range = usedRange offset size ∧ rangeEnd offset size < Quantity.bound ∧
        t.frame.stack = s.frame.stack ∧ t.frame.memory.image = s.frame.memory.image)
      fun halt _ => halt = .outOfGas := by
    refine touchMemory_meets_iff.2 ⟨fun fits => ?_, fun _ => rfl⟩
    exact (growMemory_image schedule _).mono (fun _ _ grown => ⟨rfl, fits, grown⟩)
      fun _ _ poor => poor
  refine (related.and range).mono (fun _ t both => ?_) (fun _ t both => ⟨both.2, both.1⟩)
  obtain ⟨kept, same, fits, stack, image⟩ := both
  exact ⟨kept, same, fits, stack, image⟩

/-! ## Operands -/

end Step

/-- The state with the first `n` words off the stack. -/
def Exec.without (n : Nat) (s : Exec) : Exec :=
  { s with frame := { s.frame with stack := ⟨s.frame.stack.items.drop n⟩ } }

namespace Step

variable {α : Type} {s : Exec} {next : α → Exec → Prop} {halted : Halt → Exec → Prop} {n : Nat}

theorem without_thrifty (n : Nat) (s : Exec) : Thrifty s (s.without n) := ⟨rfl, rfl, fun _ => rfl⟩

/-- What was grown after operands were taken was grown after they were put. -/
theorem Grown.of_without {schedule : Schedule} {stop : Nat} {t : Exec}
    (grown : Grown schedule stop (s.without n) t) : Grown schedule stop s t :=
  ⟨⟨grown.affordable, grown.depth, grown.paid⟩, grown.memory⟩

theorem pop_without {f : Word → Step α} (enough : n < s.frame.stack.size)
    (rest : Meets (f (s.frame.operand n)) (s.without (n + 1)) next halted) :
    Meets (pop >>= f) (s.without n) next halted := by
  have items : (s.without n).frame.stack.items =
      s.frame.operand n :: s.frame.stack.items.drop (n + 1) := by
    have top : s.frame.operand n = s.frame.stack.items[n] := by
      rw [Frame.operand, List.getD_eq_getElem?_getD, List.getElem?_eq_getElem enough,
        Option.getD_some]
    rw [top]
    exact List.drop_eq_getElem_cons enough
  rw [meets_bind_iff, meets_pop items]
  exact rest

theorem popMany_without {count : Nat} {f : List Word → Step α}
    (enough : n + count ≤ s.frame.stack.size)
    (rest : ∀ words, Meets (f words) (s.without (n + count)) next halted) :
    Meets (popMany count >>= f) (s.without n) next halted := by
  induction count generalizing n f with
  | zero => exact rest []
  | succ count ih =>
      unfold popMany
      rw [bind_assoc]
      refine pop_without (by omega) ?_
      rw [bind_assoc]
      refine ih (by omega) fun words => ?_
      rw [Nat.add_right_comm]
      exact rest _

theorem callValue_without {kind : CallKind} {f : Word → Step α}
    (enough : n + valueOperands kind ≤ s.frame.stack.size)
    (rest : Meets (f (if valueOperands kind = 1 then s.frame.operand n else 0))
      (s.without (n + valueOperands kind)) next halted) :
    Meets (callValue kind >>= f) (s.without n) next halted := by
  unfold callValue
  unfold valueOperands at enough rest
  split
  · rename_i valued
    simp only [valued, if_true] at enough rest
    exact pop_without enough rest
  · rename_i valueless
    simp only [valueless, if_false] at rest
    exact rest

theorem createSalt_without {kind : CreateKind} {f : Word → Step α}
    (enough : n + saltOperands kind ≤ s.frame.stack.size)
    (rest : ∀ salt, Meets (f salt) (s.without (n + saltOperands kind)) next halted) :
    Meets (createSalt kind >>= f) (s.without n) next halted := by
  unfold createSalt
  unfold saltOperands at enough rest
  split
  · rename_i salted
    simp only [salted, if_true] at enough rest
    exact pop_without enough (rest _)
  · rename_i plain
    simp only [plain, if_false] at rest
    exact rest 0

end Step

end EvmLedger.Vm
