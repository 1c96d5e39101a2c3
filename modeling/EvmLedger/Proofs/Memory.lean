/-
# EvmLedger.Proofs.Memory -- the size of memory, and memory in whole words

Memory is as large as it was last made, or as the furthest write since reaches
(`size_resize`, `size_expand`, `size_writeSlice`).  Memory that is paid for is a whole
number of words (`Aligned`), and it is grown to cover what is touched next
(`covering`).  A write that lies inside of it replaces bytes and nothing else, so its
size stays (`writeSlice_inside`), and a copy is a write (`copy_eq_writeSlice`): where
every range is covered before it is written, memory never grows on its own.
-/
import EvmLedger.Vm.Memory
import Mathlib.Tactic.Common

namespace EvmLedger.Vm.Memory

set_option autoImplicit false

variable {m m' : Memory} {stop offset : Nat} {bytes : Bytes}

/-! ## Changing the size -/

@[simp] theorem size_expand (m : Memory) (size : Nat) : (m.expand size).size = max m.size size := by
  unfold expand
  split
  · rename_i smaller
    show (m.data ++ Array.replicate (size - m.size) 0).size = max m.size size
    rw [Array.size_append, Array.size_replicate]
    show m.size + (size - m.size) = max m.size size
    omega
  · omega

@[simp] theorem size_resize (m : Memory) (size : Nat) : (m.resize size).size = size := by
  unfold resize
  split
  case isTrue long =>
    have long : size < m.data.size := long
    show (m.data.take size).size = size
    simp only [Array.take_eq_extract, Array.size_extract]
    omega
  case isFalse short =>
    rw [size_expand]
    omega

theorem expand_of_le {size : Nat} (le : size ≤ m.size) : m.expand size = m :=
  if_neg (Nat.not_lt.2 le)

/-! ## Whole words -/

/-- The size is a whole number of words. -/
def Aligned (m : Memory) : Prop := m.size = 32 * m.words

theorem words_empty : ({} : Memory).words = 0 := rfl

theorem aligned_empty : ({} : Memory).Aligned := rfl

theorem words_of_size_eq (same : m'.size = m.size) : m'.words = m.words :=
  congrArg Quantity.wordsFor same

theorem Aligned.of_size_eq (aligned : m.Aligned) (same : m'.size = m.size) : m'.Aligned := by
  rw [Aligned, words_of_size_eq same, same]
  exact aligned

/-- Memory grown in whole words until it reaches to `stop`. -/
def covering (m : Memory) (stop : Nat) : Memory :=
  m.expand (32 * max m.words (Quantity.wordsFor stop))

theorem aligned_of_size {words : Nat} (size : m.size = 32 * words) : m.words = words := by
  rw [Memory.words, size, Quantity.wordsFor]
  omega

theorem size_covering (aligned : m.Aligned) (stop : Nat) :
    (m.covering stop).size = 32 * max m.words (Quantity.wordsFor stop) := by
  have size : m.size = 32 * m.words := aligned
  rw [covering, size_expand]
  omega

theorem words_covering (aligned : m.Aligned) (stop : Nat) :
    (m.covering stop).words = max m.words (Quantity.wordsFor stop) :=
  aligned_of_size (size_covering aligned stop)

theorem aligned_covering (aligned : m.Aligned) (stop : Nat) : (m.covering stop).Aligned := by
  rw [Aligned, size_covering aligned, words_covering aligned]

theorem le_size_covering (m : Memory) (stop : Nat) : stop ≤ (m.covering stop).size := by
  rw [covering, size_expand, Quantity.wordsFor]
  omega

theorem covering_of_le (aligned : m.Aligned) (covered : Quantity.wordsFor stop ≤ m.words) :
    m.covering stop = m := by
  have size : m.size = 32 * m.words := aligned
  apply expand_of_le
  omega

/-! ## Writing -/

@[simp] theorem size_overwrite (data : Array UInt8) (offset : Nat) (bytes : Bytes) :
    (overwrite data offset bytes).size = data.size := by
  induction bytes generalizing data offset with
  | nil => rfl
  | cons byte rest ih => rw [overwrite, ih, Array.size_setIfInBounds]

/-- A write of some bytes, to a range that ends at an offset, grows memory to fit. -/
theorem writeSlice_eq (m : Memory) (offset : Nat) (bytes : Bytes) :
    m.writeSlice offset bytes =
      if bytes.length ≠ 0 ∧ offset + bytes.length < Quantity.bound then
        ⟨overwrite (m.expand (offset + bytes.length)).data offset bytes⟩
      else m := by
  cases bytes with
  | nil => rfl
  | cons byte rest =>
      simp only [writeSlice, List.isEmpty_cons, Bool.false_eq_true, if_false, Quantity.add?]
      by_cases addressable : offset + (byte :: rest).length < Quantity.bound
      · rw [if_pos addressable, if_pos ⟨Nat.succ_ne_zero _, addressable⟩]
      · rw [if_neg addressable, if_neg fun both => addressable both.2]

theorem size_writeSlice (m : Memory) (offset : Nat) (bytes : Bytes) :
    (m.writeSlice offset bytes).size =
      if bytes.length ≠ 0 ∧ offset + bytes.length < Quantity.bound then
        max m.size (offset + bytes.length)
      else m.size := by
  rw [writeSlice_eq]
  split
  · exact (size_overwrite _ _ _).trans (size_expand m _)
  · rfl

/-- To copy is to write a window of the source. -/
theorem copy_eq_writeSlice (m : Memory) (offset start size : Nat) (source : Bytes) :
    m.copy offset start size source = m.writeSlice offset (source.window start size) := by
  cases size with
  | zero => simp [copy, writeSlice, Bytes.window]
  | succ size =>
      have nonempty : (source.window start (size + 1)).isEmpty = false := by
        rw [List.isEmpty_eq_false_iff, ← List.length_pos_iff, Bytes.window_length]
        omega
      simp only [copy, writeSlice, nonempty, Bytes.window_length, Nat.succ_ne_zero, if_false,
        Bool.false_eq_true]

theorem size_copy (m : Memory) (offset start size : Nat) (source : Bytes) :
    (m.copy offset start size source).size =
      if size ≠ 0 ∧ offset + size < Quantity.bound then max m.size (offset + size) else m.size := by
  rw [copy_eq_writeSlice, size_writeSlice, Bytes.window_length]

theorem writeSlice_inside (inside : offset + bytes.length ≤ m.size)
    (addressable : offset + bytes.length < Quantity.bound) :
    m.writeSlice offset bytes = ⟨overwrite m.data offset bytes⟩ := by
  rw [writeSlice_eq, expand_of_le inside]
  cases bytes with
  | nil => rfl
  | cons byte rest => exact if_pos ⟨Nat.succ_ne_zero _, addressable⟩

/-- At most the bytes of one of several ranges were replaced, all of them inside of memory. -/
inductive Overwritten (ranges : List (Word × Word)) (m : Memory) : Memory → Prop
  | kept : Overwritten ranges m m
  | written {offset size : Word} {bytes : Bytes} (among : (offset, size) ∈ ranges)
      (length : bytes.length = size.toNat) (inside : offset.toNat + size.toNat ≤ m.size) :
      Overwritten ranges m ⟨overwrite m.data offset.toNat bytes⟩

theorem Overwritten.size_eq {ranges : List (Word × Word)} (overwritten : Overwritten ranges m m') :
    m'.size = m.size := by
  cases overwritten with
  | kept => rfl
  | written => exact size_overwrite _ _ _

end EvmLedger.Vm.Memory
