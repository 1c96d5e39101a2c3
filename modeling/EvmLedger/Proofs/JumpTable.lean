/-
# EvmLedger.Proofs.JumpTable -- instruction boundaries and jump destinations

Code is a sequence of instructions of different lengths.  `Boundary code` holds of
the offsets at which an instruction begins when the code is read from its start:
offset zero, and after each instruction the offset behind it and its push data.
Boundaries do not interleave: behind one there is none before the next
(`Boundary.next_le`), so no boundary is inside push data.

Every other offset of the code is inside push data (`boundary_or_pushData`), and so
it can be said of a byte by itself whether it is an instruction.

The scan that looks for jump destinations finds exactly the boundaries that hold
the jump destination byte (`mem_destinations_iff`), and a jump leads to one of
those or nowhere (`target?_ofCode_eq_some`, `jump_analysis_exact`).
-/
import EvmLedger.Vm.JumpTable
import Mathlib.Data.BitVec

namespace EvmLedger.Vm

set_option autoImplicit false

/-- The offsets at which an instruction of some code begins. -/
inductive Boundary (code : Bytes) : Nat → Prop
  | start : Boundary code 0
  | next {pc : Nat} {byte : UInt8} (before : Boundary code pc) (here : code[pc]? = some byte) :
      Boundary code (pc + 1 + Opcode.pushBytes byte)

/-- The offsets of the data of the push instructions of some code. -/
def PushData (code : Bytes) (offset : Nat) : Prop :=
  ∃ pc byte, Boundary code pc ∧ code[pc]? = some byte ∧ pc < offset ∧
    offset ≤ pc + Opcode.pushBytes byte

namespace Boundary

variable {code : Bytes}

/-- Before a boundary there are only whole instructions. -/
theorem next_le {pc later : Nat} (boundary : Boundary code later) (before : Boundary code pc)
    (lt : pc < later) :
    ∃ byte, code[pc]? = some byte ∧ pc + 1 + Opcode.pushBytes byte ≤ later := by
  induction later using Nat.strongRecOn generalizing pc with
  | ind later ih =>
      cases boundary with
      | start => exact absurd lt (Nat.not_lt_zero pc)
      | @next last byte earlier here =>
          rcases Nat.lt_trichotomy pc last with less | rfl | more
          · obtain ⟨found, at_pc, le⟩ := ih last (by omega) earlier before less
            exact ⟨found, at_pc, by omega⟩
          · exact ⟨byte, here, Nat.le_refl _⟩
          · -- `pc` would lie inside the last instruction, which ends at or before `pc`
            obtain ⟨found, at_last, le⟩ := ih pc lt before earlier more
            cases here.symm.trans at_last
            omega

/-- No instruction begins inside push data. -/
theorem not_pushData {offset : Nat} (boundary : Boundary code offset) : ¬PushData code offset := by
  rintro ⟨pc, byte, before, here, lt, le⟩
  obtain ⟨found, at_pc, behind⟩ := boundary.next_le before lt
  cases here.symm.trans at_pc
  omega

end Boundary

/-- Where code is not the beginning of an instruction, it is push data. -/
theorem boundary_or_pushData {code : Bytes} {offset : Nat} (inside : offset ≤ code.length) :
    Boundary code offset ∨ PushData code offset := by
  induction offset with
  | zero => exact Or.inl .start
  | succ offset ih =>
      rcases ih (Nat.le_of_lt inside) with boundary | ⟨pc, byte, boundary, here, lt, le⟩
      · have here : code[offset]? = some code[offset] := List.getElem?_eq_getElem inside
        rcases Nat.eq_zero_or_pos (Opcode.pushBytes code[offset]) with none | some
        · have next := boundary.next here
          rw [none] at next
          exact Or.inl next
        · exact Or.inr ⟨offset, _, boundary, here, Nat.lt_succ_self offset, by omega⟩
      · -- the push that `offset` belongs to goes on, or ends with it
        rcases Nat.eq_or_lt_of_le le with rfl | more
        · have next := boundary.next here
          rw [Nat.add_right_comm] at next
          exact Or.inl next
        · exact Or.inr ⟨pc, byte, boundary, here, Nat.lt_succ_of_lt lt, more⟩

theorem boundary_iff_not_pushData {code : Bytes} {offset : Nat} (inside : offset ≤ code.length) :
    Boundary code offset ↔ ¬PushData code offset := by
  refine ⟨Boundary.not_pushData, fun outside => ?_⟩
  exact (boundary_or_pushData inside).resolve_right outside

/-! ## The scan for jump destinations -/

section Scan

variable {code : Bytes}

theorem drop_eq_cons {offset : Nat} {byte : UInt8} {rest : Bytes}
    (from_here : code.drop offset = byte :: rest) :
    code[offset]? = some byte ∧ code.drop (offset + 1) = rest := by
  constructor
  · rw [← List.head?_drop, from_here, List.head?_cons]
  · rw [← List.tail_drop, from_here, List.tail_cons]

theorem mem_destinationsFrom_cons {offset destination : Nat} {byte : UInt8} {rest : Bytes} :
    destination ∈ destinationsFrom offset 0 (byte :: rest) ↔
      (byte = jumpDestByte ∧ destination = offset) ∨
        destination ∈ destinationsFrom (offset + 1) (Opcode.pushBytes byte) rest := by
  show destination ∈ ite _ _ _ ↔ _
  split
  · rename_i dest
    rw [List.mem_cons, eq_true dest, true_and]
  · rename_i other
    rw [eq_false other, false_and, false_or]

/-- What the scan finds is a jump destination, if it is at `offset` with the next boundary `skip`
bytes ahead. -/
theorem of_mem_destinationsFrom {offset skip destination : Nat}
    (ahead : Boundary code (offset + skip))
    (found : destination ∈ destinationsFrom offset skip (code.drop offset)) :
    code[destination]? = some jumpDestByte ∧ Boundary code destination := by
  generalize rest_eq : code.drop offset = rest at found
  induction rest generalizing offset skip with
  | nil => cases found
  | cons byte rest ih =>
      obtain ⟨here, later⟩ := drop_eq_cons rest_eq
      cases skip with
      | succ skip =>
          refine ih ?_ later found
          rwa [Nat.add_right_comm, Nat.add_assoc]
      | zero =>
          rcases mem_destinationsFrom_cons.1 found with ⟨rfl, rfl⟩ | found
          · exact ⟨here, ahead⟩
          · exact ih (ahead.next here) later found

/-- The scan finds every jump destination, if there is no boundary among the `skip` bytes at
`offset`. -/
theorem mem_destinationsFrom {offset skip destination : Nat}
    (ahead : Boundary code (offset + skip))
    (none_between : ∀ pc, Boundary code pc → offset ≤ pc → offset + skip ≤ pc)
    (boundary : Boundary code destination) (le : offset ≤ destination)
    (dest : code[destination]? = some jumpDestByte) :
    destination ∈ destinationsFrom offset skip (code.drop offset) := by
  generalize rest_eq : code.drop offset = rest
  induction rest generalizing offset skip with
  | nil =>
      have short := List.drop_eq_nil_iff.1 rest_eq
      have inside := (List.getElem?_eq_some_iff.1 dest).1
      omega
  | cons byte rest ih =>
      obtain ⟨here, later⟩ := drop_eq_cons rest_eq
      cases skip with
      | succ skip =>
          have far := none_between destination boundary le
          refine ih ?_ (fun pc at_pc from_pc => ?_) (by omega) later
          · rwa [Nat.add_right_comm, Nat.add_assoc]
          · have := none_between pc at_pc (by omega)
            omega
      | zero =>
          rw [mem_destinationsFrom_cons]
          rcases Nat.eq_or_lt_of_le le with rfl | lt
          · cases here.symm.trans dest
            exact Or.inl ⟨rfl, rfl⟩
          · refine Or.inr (ih (ahead.next here) (fun pc at_pc from_pc => ?_) lt later)
            obtain ⟨found, at_offset, behind⟩ := at_pc.next_le ahead from_pc
            cases here.symm.trans at_offset
            exact behind

/-- The jump destinations are the boundaries that hold the jump destination byte. -/
theorem mem_destinations_iff {destination : Nat} :
    destination ∈ destinations code ↔
      code[destination]? = some jumpDestByte ∧ Boundary code destination := by
  constructor
  · intro found
    have first : Boundary code (0 + 0) := .start
    exact of_mem_destinationsFrom first found
  · rintro ⟨dest, boundary⟩
    have first : Boundary code (0 + 0) := .start
    exact mem_destinationsFrom first (fun _ _ le => le) boundary (Nat.zero_le _) dest

/-- A jump leads to a jump destination, and to the one that the whole word names. -/
theorem target?_ofCode_eq_some {target : Word} {destination : Nat} :
    (JumpTable.ofCode code).target? target = some destination ↔
      target.narrow? = some destination ∧ code[destination]? = some jumpDestByte ∧
        Boundary code destination := by
  rw [← mem_destinations_iff]
  unfold JumpTable.target? JumpTable.ofCode
  simp only [Option.bind_eq_bind, Option.bind_eq_some_iff, Std.HashSet.contains_ofList,
    List.contains_iff_mem]
  constructor
  · rintro ⟨offset, narrow, found⟩
    split at found
    · cases found
      exact ⟨narrow, ‹_›⟩
    · cases found
  · rintro ⟨narrow, found⟩
    exact ⟨destination, narrow, if_pos found⟩

end Scan

/-! ## Jumps -/

/-- A jump is possible to the offset that the whole word names, when an instruction begins there and
its byte is the jump destination.  It is the same to say that this byte is not among the data of a
push, be it a push that is cut off by the end of the code. -/
theorem jump_analysis_exact (code : Bytes) (fits : code.length ≤ Quantity.bound) (target : Word)
    (offset : Nat) :
    ((JumpTable.ofCode code).target? target = some offset ↔
        target.toNat = offset ∧ offset < code.length ∧ code[offset]? = some 0x5b ∧
          Boundary code offset) ∧
      ((JumpTable.ofCode code).target? target = some offset ↔
        target.toNat = offset ∧ offset < code.length ∧ code[offset]? = some 0x5b ∧
          ¬PushData code offset) := by
  have exact : (JumpTable.ofCode code).target? target = some offset ↔
      target.toNat = offset ∧ offset < code.length ∧ code[offset]? = some 0x5b ∧
        Boundary code offset := by
    rw [target?_ofCode_eq_some, Word.narrow?_eq_some]
    constructor
    · rintro ⟨⟨same, _⟩, dest, boundary⟩
      exact ⟨same, (List.getElem?_eq_some_iff.1 dest).1, dest, boundary⟩
    · rintro ⟨same, inside, dest, boundary⟩
      exact ⟨⟨same, Nat.lt_of_lt_of_le inside fits⟩, dest, boundary⟩
  refine ⟨exact, exact.trans ?_⟩
  refine and_congr_right fun _ => and_congr_right fun inside => and_congr_right fun _ => ?_
  exact boundary_iff_not_pushData (Nat.le_of_lt inside)

/-- Three bytes that look like destinations: the data of a push, a destination, and the data of a
push that is cut off. -/
def lookalike : Bytes := [0x60, 0x5b, 0x5b, 0x62, 0x5b]

/-- Only the one in the middle is a destination, and only by its own number. -/
theorem jump_analysis_exact_lookalike :
    lookalike.length ≤ Quantity.bound ∧
      (JumpTable.ofCode lookalike).target? 2 = some 2 ∧
      (JumpTable.ofCode lookalike).target? 1 ≠ some 1 ∧
      (JumpTable.ofCode lookalike).target? 4 ≠ some 4 ∧
      ∀ offset, (JumpTable.ofCode lookalike).target? (2 ^ 64 + 2) ≠ some offset := by
  have fits : lookalike.length ≤ Quantity.bound := by decide
  have second : Boundary lookalike 2 :=
    Boundary.start.next (show lookalike[0]? = some 0x60 from rfl)
  have third : Boundary lookalike 3 := second.next (show lookalike[2]? = some 0x5b from rfl)
  refine ⟨fits, ?_, ?_, ?_, ?_⟩
  · exact (jump_analysis_exact lookalike fits 2 2).1.2 ⟨rfl, by decide, rfl, second⟩
  · intro jump
    obtain ⟨_, _, _, outside⟩ := (jump_analysis_exact lookalike fits 1 1).2.1 jump
    exact outside ⟨0, 0x60, .start, rfl, by decide, by decide⟩
  · intro jump
    obtain ⟨_, _, _, outside⟩ := (jump_analysis_exact lookalike fits 4 4).2.1 jump
    exact outside ⟨3, 0x62, third, rfl, by decide, by decide⟩
  · intro offset jump
    obtain ⟨rfl, inside, _⟩ := (jump_analysis_exact lookalike fits (2 ^ 64 + 2) offset).1.1 jump
    exact absurd inside (by decide +kernel)

end EvmLedger.Vm
