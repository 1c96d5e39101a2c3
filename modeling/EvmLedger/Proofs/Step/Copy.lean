/-
# EvmLedger.Proofs.Step.Copy -- copies and loads of bytes that go on with zeros

Call data, code and the code of other accounts are read as if they went on with zeros
forever, at offsets of any size: an offset that is no 64-bit quantity is past the end of
everything, and stopping at the greatest quantity loses nothing (`getD_clamp`).  A copy
replaces just the bytes of its target range (`Filled`), and the word loaded from call
data is the one that is loaded from memory after a copy (`callDataWord_eq`).

Return data does not go on.  A copy of it that gets to its work is refused just when it
reaches past the end (`returnDataCopy_meets`): the instruction tells so by 64-bit
quantities, and numbers of any size would tell the same (`inside_iff_narrow`).
-/
import EvmLedger.Proofs.Machine.Run
import EvmLedger.Proofs.Step.Cover
import EvmLedger.Proofs.Step.Entry

namespace EvmLedger.Vm.Step

set_option autoImplicit false

/-! ## Offsets of any size -/

/-- An offset that does not fit is past the end, and so is the greatest quantity. -/
theorem getD_clamp {source : Bytes} (fits : source.length < Quantity.bound) (offset : Word)
    (i : Nat) : source.getD (offset.clamp + i) 0 = source.getD (offset.toNat + i) 0 := by
  rw [Word.clamp, narrow?_eq]
  by_cases narrow : offset.toNat < Quantity.bound
  · rw [if_pos narrow, Option.getD_some]
  · -- Both positions are past the end: the source is shorter than any offset that does not fit.
    have clamped : source.length ≤ Quantity.greatest + i := by
      unfold Quantity.greatest
      omega
    rw [if_neg narrow, Option.getD_none, List.getD_eq_default _ _ clamped,
      List.getD_eq_default _ _ (by omega)]

/-- The word of the 32 bytes from an offset on. -/
def wordAt (source : Bytes) (offset : Nat) : Word :=
  Word.ofBytes ((List.range 32).map fun i => source.getD (offset + i) 0)

theorem callDataWord_eq {data : Bytes} (fits : data.length < Quantity.bound) (offset : Word) :
    callDataWord data offset = wordAt data offset.toNat := by
  rw [callDataWord, wordAt, narrow?_eq]
  by_cases narrow : offset.toNat < Quantity.bound
  · rw [if_pos narrow]
    exact congrArg Word.ofBytes (Bytes.window_eq_map _ _ _)
  · have zeros : (List.range 32).map (fun i => data.getD (offset.toNat + i) 0) =
        (List.range 32).map fun _ => 0 := by
      refine List.map_congr_left fun i _ => ?_
      exact List.getD_eq_default _ _ (by omega)
    rw [if_neg narrow, zeros]
    rfl

/-- Of data that can be held, 64-bit quantities tell whether a range of any size ends inside. -/
theorem inside_iff_narrow {offset size : Word} {length : Nat} (fits : length < Quantity.bound) :
    offset.toNat + size.toNat ≤ length ↔
      rangeStart? length offset size = some offset.toNat := by
  rw [rangeStart?_eq_some]
  constructor
  · exact fun inside => ⟨rfl, Nat.lt_of_le_of_lt inside fits, inside⟩
  · rintro ⟨-, -, inside⟩
    exact inside

variable {ctx : Context} {s t : Exec} {target size offset : Word} {range : Nat × Nat}

/-! ## Writing to a range that was paid for -/

theorem Reached.fill_writeSlice (reached : Reached range target size s t) {bytes : Bytes}
    (whole : bytes.length = size.toNat) :
    (t.frame.memory.writeSlice range.1 bytes).image =
      s.frame.memory.image.fill target.toNat size.toNat fun i => bytes.getD i 0 := by
  obtain ⟨-, rfl, addressable, -, image⟩ := reached
  rw [Memory.image_writeSlice, whole, image]
  by_cases empty : size = 0
  · subst empty
    simp
  · rw [rangeEnd, if_neg empty] at addressable
    rw [usedRange_of_ne empty, if_pos addressable]

theorem Reached.fill_copy (reached : Reached range target size s t) {source : Bytes}
    (fits : source.length < Quantity.bound) (offset : Word) :
    (t.frame.memory.copy range.1 offset.clamp range.2 source).image =
      s.frame.memory.image.fill target.toNat size.toNat
        fun i => source.getD (offset.toNat + i) 0 := by
  have whole : (source.window offset.clamp range.2).length = size.toNat := by
    rw [Bytes.window_length, reached.range_eq, usedRange_snd]
  rw [Memory.copy_eq_writeSlice, reached.fill_writeSlice whole]
  refine Image.fill_congr fun i inside => ?_
  rw [← usedRange_snd target size, ← reached.range_eq] at inside
  rw [Bytes.getD_window inside, getD_clamp fits]

/-- The source of a copy is read when memory is paid for, where the overlay and the parameters of the
frame are still as they were. -/
theorem copyToMemory_fills {source : Step Bytes} {bytes : Bytes}
    (reads : ∀ t, Local s t →
      Meets source t (fun found u => found = bytes ∧ u.frame.memory = t.frame.memory)
        fun _ _ => True)
    (fits : bytes.length < Quantity.bound) :
    Meets (copyToMemory ctx.schedule target offset size source) s
      (fun _ t => t.frame.memory.image =
        s.frame.memory.image.fill target.toNat size.toNat
          fun i => bytes.getD (offset.toNat + i) 0)
      fun _ _ => True := by
  unfold copyToMemory
  rw [meets_bind_iff]
  refine (touchMemory_reached _ _ _).mono (fun range t reached => ?_) fun _ _ _ => trivial
  rw [meets_bind_iff, meets_pay]
  refine ⟨fun _ => ?_, fun _ => trivial⟩
  have paid : Local s { t with frame := { t.frame with
      gas := t.frame.gas - ctx.schedule.copyCost range.2 } } :=
    trans_of Local reached.toLocal (Lenient.gas _ _ (Nat.sub_le _ _))
  rw [meets_bind_iff]
  refine (reads _ paid).mono (fun found u read => ?_) fun _ _ _ => trivial
  obtain ⟨rfl, memory⟩ := read
  show (u.frame.memory.copy range.1 offset.clamp range.2 found).image = _
  rw [memory]
  exact reached.fill_copy fits offset

/-! ## The instructions -/

/-- The bytes from operand `n` on are those of a source from the offset in the next operand on, as
many as the one after it says, and all others are as they were. -/
def Filled (n : Nat) (source : Bytes) (s t : Exec) : Prop :=
  t.frame.memory.image =
    s.frame.memory.image.fill (s.frame.operand n).toNat (s.frame.operand (n + 2)).toNat
      fun i => source.getD ((s.frame.operand (n + 1)).toNat + i) 0

/-- An instruction takes one word and puts `w` in its place. -/
def Yields (w : Word) (s t : Exec) : Prop :=
  t.frame.stack.items = w :: s.frame.stack.items.drop 1

/-- The operands of a copy are its target, its offset and its size, in this order. -/
theorem copy_fills {source : Step Bytes} {bytes : Bytes} {n : Nat}
    (enough : n + 3 ≤ s.frame.stack.size)
    (reads : ∀ t, Local (s.without (n + 3)) t →
      Meets source t (fun found u => found = bytes ∧ u.frame.memory = t.frame.memory)
        fun _ _ => True)
    (fits : bytes.length < Quantity.bound) :
    Meets (do
        let target ← pop
        let offset ← pop
        let size ← pop
        copyToMemory ctx.schedule target offset size source)
      (s.without n) (fun _ t => Filled n bytes s t) fun _ _ => True := by
  refine pop_without (by omega) ?_
  refine pop_without (by omega) ?_
  refine pop_without (by omega) ?_
  exact copyToMemory_fills reads fits

theorem callDataCopy_fills (fits : s.frame.params.data.length < Quantity.bound) :
    Meets (Step.instruction ctx 0x37) s (fun _ t => Filled 0 s.frame.params.data s t)
      fun _ _ => True := by
  have decoded : Instruction.ofByte? 0x37 = some .callDataCopy := rfl
  refine instruction_meets decoded (fun ready => ?_) fun _ _ => trivial
  refine meets_next.2 (copy_fills (s := s.begun _ _) (n := 0) ready.operands ?_ fits)
  intro t kept
  exact ⟨congrArg Params.data kept.frame.params, rfl⟩

theorem codeCopy_fills (fits : s.frame.params.code.length < Quantity.bound) :
    Meets (Step.instruction ctx 0x39) s (fun _ t => Filled 0 s.frame.params.code s t)
      fun _ _ => True := by
  have decoded : Instruction.ofByte? 0x39 = some .codeCopy := rfl
  refine instruction_meets decoded (fun ready => ?_) fun _ _ => trivial
  refine meets_next.2 (copy_fills (s := s.begun _ _) (n := 0) ready.operands ?_ fits)
  intro t kept
  exact ⟨congrArg Params.code kept.frame.params, rfl⟩

/-- The code of the account that the first operand names. -/
def namedCode (ctx : Context) (s : Exec) : Bytes :=
  s.overlay.code ctx.host (Address.ofWord (s.frame.operand 0))

theorem extCodeCopy_fills (fits : (namedCode ctx s).length < Quantity.bound) :
    Meets (Step.instruction ctx 0x3c) s (fun _ t => Filled 1 (namedCode ctx s) s t)
      fun _ _ => True := by
  have decoded : Instruction.ofByte? 0x3c = some .extCodeCopy := rfl
  refine instruction_meets decoded (fun ready => ?_) fun _ _ => trivial
  have four : 4 ≤ s.frame.stack.size := ready.operands
  refine meets_next.2 ?_
  show Meets _ ((s.begun _ _).without 0) _ _
  refine pop_without (show 0 < s.frame.stack.size by omega) ?_
  refine copy_fills (s := s.begun _ _) (n := 1) four (fun t kept => ?_) fits
  have thrifty := code_respects (R := Thrifty) ctx.host (Address.ofWord (s.frame.operand 0)) t
  refine ((code_reads _ _).and thrifty).mono (fun found u read => ?_) fun _ _ _ => trivial
  obtain ⟨⟨-, rfl⟩, after⟩ := read
  refine ⟨?_, after.memory⟩
  rw [kept.overlay]
  rfl

theorem callDataLoad_yields (fits : s.frame.params.data.length < Quantity.bound) :
    Meets (Step.instruction ctx 0x35) s
      (fun _ t => Yields (wordAt s.frame.params.data (s.frame.operand 0).toNat) s t)
      fun _ _ => True := by
  have decoded : Instruction.ofByte? 0x35 = some .callDataLoad := rfl
  refine instruction_meets decoded (fun ready => ?_) fun _ _ => trivial
  have one : 1 ≤ s.frame.stack.size := ready.operands
  refine meets_next.2 ?_
  show Meets _ ((s.begun _ _).without 0) _ _
  refine pop_without (show 0 < s.frame.stack.size by omega) ?_
  rw [meets_bind_iff, meets_params, meets_push, ← callDataWord_eq fits]
  exact ⟨fun _ => rfl, fun _ => trivial⟩

theorem mload_yields :
    Meets (Step.instruction ctx 0x51) s
      (fun _ t => Yields (s.frame.memory.read (s.frame.operand 0).toNat) s t)
      fun _ _ => True := by
  have decoded : Instruction.ofByte? 0x51 = some .mload := rfl
  refine instruction_meets decoded (fun ready => ?_) fun _ _ => trivial
  have one : 1 ≤ s.frame.stack.size := ready.operands
  refine meets_next.2 ?_
  show Meets _ ((s.begun _ _).without 0) _ _
  refine pop_without (show 0 < s.frame.stack.size by omega) ?_
  rw [meets_bind_iff]
  refine (touchMemory_reached _ _ _).mono (fun range t reached => ?_) fun _ _ _ => trivial
  have start : range.1 = (s.frame.operand 0).toNat := by
    rw [reached.range_eq, usedRange_of_ne (by decide)]
    rfl
  rw [meets_bind_iff, meets_get, meets_push]
  refine ⟨fun _ => ?_, fun _ => trivial⟩
  show t.frame.memory.read range.1 :: t.frame.stack.items = _
  rw [start, Memory.read_congr reached.image, reached.stack]
  rfl

/-- A word is read from where 32 bytes were copied to. -/
theorem Filled.read {source : Bytes} (filled : Filled 0 source s t)
    (word : s.frame.operand 2 = 32) :
    t.frame.memory.read (s.frame.operand 0).toNat =
      wordAt source (s.frame.operand 1).toNat := by
  rw [Memory.read_eq, show t.frame.memory.image = _ from filled, word]
  refine congrArg Word.ofBytes (List.map_congr_left fun i inside => ?_)
  exact Image.fill_inside (List.mem_range.1 inside)

/-- The operands of a copy of return data stay inside of it. -/
def InReturnData (frame : Frame) : Prop :=
  (frame.operand 1).toNat + (frame.operand 2).toNat ≤ frame.returnData.length

theorem copyReturnData_fills (enough : 3 ≤ s.frame.stack.size) :
    Meets (copyReturnData ctx.schedule) s
      (fun _ t => InReturnData s.frame ∧ Filled 0 s.frame.returnData s t)
      fun halt _ =>
        (s.frame.returnData.length < Quantity.bound →
          (halt = .trap .returnDataOutOfBounds ↔ ¬InReturnData s.frame)) := by
  refine copyReturnData_without enough (fun missing fits => ?_) fun start found => ?_
  · refine iff_of_true rfl fun inside => ?_
    rw [(inside_iff_narrow fits).1 inside] at missing
    cases missing
  obtain ⟨rfl, -, inside⟩ := rangeStart?_eq_some.1 found
  rw [meets_bind_iff]
  refine (touchMemory_reached _ _ _).mono (fun range t reached => ?_) fun halt _ stopped _ => ?_
  · rw [meets_bind_iff, meets_pay]
    refine ⟨fun _ => ⟨inside, ?_⟩, fun _ _ => iff_of_false nofun (not_not_intro inside)⟩
    have whole : ((s.frame.returnData.drop (s.frame.operand 1).toNat).take range.2).length =
        (s.frame.operand 2).toNat := by
      rw [reached.range_eq]
      exact length_take_used inside
    refine (reached.fill_writeSlice whole).trans (Image.fill_congr fun i within => ?_)
    rw [reached.range_eq, usedRange_snd, List.getD_eq_getElem?_getD, List.getElem?_take_of_lt within,
      List.getElem?_drop]
    rfl
  · rw [stopped.1]
    exact iff_of_false nofun (not_not_intro inside)

theorem returnDataCopy_meets :
    Meets (Step.instruction ctx 0x3e) s
      (fun _ t => InReturnData s.frame ∧ Filled 0 s.frame.returnData s t)
      fun halt _ =>
        s.frame.returnData.length < Quantity.bound →
          (halt = .trap .returnDataOutOfBounds ↔
            Ready ctx.schedule Instruction.returnDataCopy.shape s.frame ∧
              ¬InReturnData s.frame) := by
  have decoded : Instruction.ofByte? 0x3e = some .returnDataCopy := rfl
  refine instruction_meets decoded (fun ready => ?_) fun halt barred _ => ?_
  · refine meets_next.2 ((copyReturnData_fills (s := s.begun _ _) ready.operands).mono
      (fun _ t filled => filled) fun halt t stopped fits => ?_)
    exact (stopped fits).trans (and_iff_right ready).symm
  · refine iff_of_false ?_ fun both => barred.not_ready both.1
    cases barred <;> nofun

/-! ## All together -/

/-- Whatever the operands are, copies of call data, code and the code of other accounts (`0x37`,
`0x39`, `0x3c`) put the bytes of their source into their target range, zeros behind the end of the
source, and change no other byte of memory.  Call data (`0x35`) yields the word of its bytes at an
offset, and memory (`0x51`) yields the same one where 32 bytes of call data were copied to from that
offset.  A copy of return data (`0x3e`) that got to its work is refused when it reaches past the end
of the data, for no other reason, and otherwise copies what is there. -/
theorem copies_see_zeros (dataFits : s.frame.params.data.length < 2 ^ 64)
    (codeFits : s.frame.params.code.length < 2 ^ 64)
    (namedFits : (namedCode ctx s).length < 2 ^ 64) :
    (∀ flow t, Step.instruction ctx 0x37 s = .ok flow t → Filled 0 s.frame.params.data s t) ∧
    (∀ flow t, Step.instruction ctx 0x39 s = .ok flow t → Filled 0 s.frame.params.code s t) ∧
    (∀ flow t, Step.instruction ctx 0x3c s = .ok flow t → Filled 1 (namedCode ctx s) s t) ∧
    (∀ flow t, Step.instruction ctx 0x35 s = .ok flow t →
      Yields (wordAt s.frame.params.data (s.frame.operand 0).toNat) s t) ∧
    (∀ u flow u', u.frame.params.data = s.frame.params.data →
      u.frame.operand 1 = s.frame.operand 0 → u.frame.operand 2 = 32 →
      Step.instruction ctx 0x37 u = .ok flow u' →
      ∀ v, v.frame.memory = u'.frame.memory → v.frame.operand 0 = u.frame.operand 0 →
        ∀ flow t, Step.instruction ctx 0x51 v = .ok flow t →
          Yields (wordAt s.frame.params.data (s.frame.operand 0).toNat) v t) ∧
    (s.frame.returnData.length < 2 ^ 64 →
      ((∃ t, Step.instruction ctx 0x3e s = .error (.trap .returnDataOutOfBounds) t) ↔
        Ready ctx.schedule Instruction.returnDataCopy.shape s.frame ∧ ¬InReturnData s.frame)) ∧
    ∀ flow t, Step.instruction ctx 0x3e s = .ok flow t →
      InReturnData s.frame ∧ Filled 0 s.frame.returnData s t := by
  refine ⟨fun flow t => (callDataCopy_fills dataFits).of_ok,
    fun flow t => (codeCopy_fills codeFits).of_ok,
    fun flow t => (extCodeCopy_fills namedFits).of_ok,
    fun flow t => (callDataLoad_yields dataFits).of_ok, ?load, ?trap,
    fun flow t => returnDataCopy_meets.of_ok⟩
  case load =>
    intro u flow u' sameData sameOffset word copied v memory place flow t loaded
    have filled := (callDataCopy_fills (sameData ▸ dataFits)).of_ok copied
    have read := filled.read word
    rw [sameData, sameOffset] at read
    have yields := mload_yields.of_ok loaded
    rwa [memory, place, read] at yields
  case trap =>
    intro fits
    constructor
    · rintro ⟨t, trapped⟩
      exact (returnDataCopy_meets.of_error trapped fits).1 rfl
    · intro refused
      cases ended : Step.instruction ctx 0x3e s with
      | ok flow t => exact absurd (returnDataCopy_meets.of_ok ended).1 refused.2
      | error halt t =>
          obtain rfl := (returnDataCopy_meets.of_error ended fits).2 refused
          exact ⟨t, rfl⟩

/-- A frame whose memory holds a word of nines, and that has one byte of call data. -/
def littered (operands : List Word) : Exec where
  frame :=
    { Frame.start
        { address := ⟨1⟩, sender := .zero, origin := .zero, gas := 1000, code := [], data := [7] }
        (.ofCode []) 0 with
      memory := ({} : Memory).writeSlice 0 (List.replicate 32 9)
      stack := ⟨operands⟩ }
  overlay := {}
  events := []

/-- A copy from the greatest offset of all clears two bytes, and with return data it is refused. -/
theorem copies_see_zeros_littered :
    let s := littered [1, -1, 2]
    (s.frame.params.data.length < 2 ^ 64 ∧ s.frame.params.code.length < 2 ^ 64 ∧
      (namedCode (.uniform 0) s).length < 2 ^ 64) ∧
    (∃ flow t, Step.instruction (.uniform 0) 0x37 s = .ok flow t ∧
      (List.range 4).map t.frame.memory.image = [9, 0, 0, 9]) ∧
    ∃ t, Step.instruction (.uniform 0) 0x3e s = .error (.trap .returnDataOutOfBounds) t := by
  intro s
  have dataFits : s.frame.params.data.length < 2 ^ 64 := by decide
  have codeFits : s.frame.params.code.length < 2 ^ 64 := by decide
  have namedFits : (namedCode (.uniform 0) s).length < 2 ^ 64 := by decide
  obtain ⟨copy, -, -, -, -, refused, -⟩ :=
    copies_see_zeros dataFits codeFits namedFits
  have completes : (match Step.instruction (.uniform 0) 0x37 s with
      | .ok _ _ => true
      | .error _ _ => false) = true := by
    decide +kernel
  have ready : Ready Schedule.frontier Instruction.returnDataCopy.shape s.frame :=
    ⟨by decide, by decide, by decide⟩
  have beyond : ¬InReturnData s.frame := by
    unfold InReturnData
    decide
  refine ⟨⟨dataFits, codeFits, namedFits⟩, ?_, (refused (by decide)).2 ⟨ready, beyond⟩⟩
  cases ran : Step.instruction (.uniform 0) 0x37 s with
  | ok flow t =>
      refine ⟨flow, t, rfl, ?_⟩
      rw [show t.frame.memory.image = _ from copy flow t ran]
      decide +kernel
  | error halt t =>
      rw [ran] at completes
      cases completes

end EvmLedger.Vm.Step
