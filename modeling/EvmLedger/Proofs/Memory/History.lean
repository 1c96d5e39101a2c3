/-
# EvmLedger.Proofs.Memory.History -- any sequence of operations on memory

An operation resizes memory, expands it or writes to it.  Memory after a sequence of
them, from empty memory on, is told apart by two things only: a total function from
addresses to bytes, updated by the writes whose range ends at an offset and cut off by
resizing (`Operation.effect`), and a size, set by resizing and raised by everything else
(`Operation.extent`).  `history_image` and `history_size` say that memory is that, by
induction on the sequence, with one law of memory for each operation; what it reads and
what it does not show follows.
-/
import EvmLedger.Proofs.Memory.Image
import EvmLedger.Proofs.Word.Bytes

namespace EvmLedger.Vm.Memory

set_option autoImplicit false

/-- A change to memory. -/
inductive Operation where
  | resize (size : Nat)
  | expand (size : Nat)
  | write (offset : Nat) (w : Word)
  | writeByte (offset : Nat) (byte : UInt8)
  | writeSlice (offset : Nat) (bytes : Bytes)
  | copy (offset start size : Nat) (source : Bytes)

namespace Operation

/-- Memory after an operation. -/
def work (m : Memory) : Operation → Memory
  | .resize size => m.resize size
  | .expand size => m.expand size
  | .write offset w => m.write offset w
  | .writeByte offset byte => m.writeByte offset byte
  | .writeSlice offset bytes => m.writeSlice offset bytes
  | .copy offset start size source => m.copy offset start size source

/-- The image after `size` bytes were written from `offset` on, if the range ends at an offset. -/
def written (image : Image) (offset size : Nat) (byte : Nat → UInt8) : Image :=
  if offset + size < 2 ^ 64 then image.fill offset size byte else image

/-- What an operation makes of the byte at every address: a word is written with its greatest byte
first, and a source goes on with zeros. -/
def effect (image : Image) : Operation → Image
  | .resize size => fun address => if address < size then image address else 0
  | .expand _ => image
  | .write offset w => written image offset 32 fun i => UInt8.ofNat (w.toNat / 256 ^ (31 - i))
  | .writeByte offset byte => written image offset 1 fun _ => byte
  | .writeSlice offset bytes => written image offset bytes.length fun i => bytes.getD i 0
  | .copy offset start size source =>
      written image offset size fun i => source.getD (start + i) 0

/-- The size raised to the end of a range that some bytes were written to. -/
def raised (size offset count : Nat) : Nat :=
  if count ≠ 0 ∧ offset + count < 2 ^ 64 then max size (offset + count) else size

/-- What an operation makes of the size. -/
def extent (size : Nat) : Operation → Nat
  | .resize new => new
  | .expand least => max size least
  | .write offset _ => raised size offset 32
  | .writeByte offset _ => raised size offset 1
  | .writeSlice offset bytes => raised size offset bytes.length
  | .copy offset _ count _ => raised size offset count

end Operation

/-! ## One operation -/

theorem image_write (m : Memory) (offset : Nat) (w : Word) :
    (m.write offset w).image =
      Operation.written m.image offset 32 fun i => UInt8.ofNat (w.toNat / 256 ^ (31 - i)) := by
  have length : w.toBytes.length = 32 := Bytes.ofNat_length _ _
  rw [write, image_writeSlice, length, Operation.written]
  by_cases addressable : offset + 32 < 2 ^ 64
  · rw [if_pos addressable, if_pos (show offset + 32 < Quantity.bound from addressable)]
    exact Image.fill_congr fun i inside => Bytes.getD_ofNat w.toNat inside
  · rw [if_neg addressable, if_neg (show ¬offset + 32 < Quantity.bound from addressable)]

theorem image_writeByte (m : Memory) (offset : Nat) (byte : UInt8) :
    (m.writeByte offset byte).image = Operation.written m.image offset 1 fun _ => byte := by
  have only : m.image.fill offset 1 (fun i => [byte].getD i 0) =
      m.image.fill offset 1 fun _ => byte := by
    refine Image.fill_congr fun i inside => ?_
    obtain rfl : i = 0 := by omega
    rfl
  rw [writeByte, image_writeSlice, Operation.written, List.length_singleton, only]
  rfl

/-- An operation does to the image what it should. -/
theorem Operation.image_work (m : Memory) (operation : Operation) :
    (operation.work m).image = operation.effect m.image := by
  cases operation with
  | resize size => exact funext fun address => image_resize m size address
  | expand size => exact image_expand m size
  | write offset w => exact image_write m offset w
  | writeByte offset byte => exact image_writeByte m offset byte
  | writeSlice offset bytes => exact image_writeSlice m offset bytes
  | copy offset start size source => exact image_copy m offset start size source

/-- An operation does to the size what it should. -/
theorem Operation.size_work (m : Memory) (operation : Operation) :
    (operation.work m).size = operation.extent m.size := by
  cases operation with
  | resize size => exact size_resize m size
  | expand size => exact size_expand m size
  | write offset w =>
      have length : w.toBytes.length = 32 := Bytes.ofNat_length _ _
      show (m.writeSlice offset w.toBytes).size = Operation.raised m.size offset 32
      rw [size_writeSlice, length]
      rfl
  | writeByte offset byte => exact size_writeSlice m offset [byte]
  | writeSlice offset bytes => exact size_writeSlice m offset bytes
  | copy offset start size source => exact size_copy m offset start size source

/-! ## Any number of operations -/

/-- Memory after operations, the first one first, from empty memory on. -/
def history (operations : List Operation) : Memory := operations.foldl Operation.work {}

/-- The byte at every address after operations; at first all are zero. -/
def imageAfter (operations : List Operation) : Image :=
  operations.foldl Operation.effect fun _ => 0

/-- The size after operations: that of the last resizing, raised by what came later. -/
def sizeAfter (operations : List Operation) : Nat := operations.foldl Operation.extent 0

theorem history_image (operations : List Operation) :
    (history operations).image = imageAfter operations := by
  induction operations using List.reverseRecOn with
  | nil => rfl
  | append_singleton operations operation ih =>
      simp only [history, imageAfter, List.foldl_append, List.foldl_cons, List.foldl_nil] at ih ⊢
      rw [Operation.image_work, ih]

theorem history_size (operations : List Operation) :
    (history operations).size = sizeAfter operations := by
  induction operations using List.reverseRecOn with
  | nil => rfl
  | append_singleton operations operation ih =>
      simp only [history, sizeAfter, List.foldl_append, List.foldl_cons, List.foldl_nil] at ih ⊢
      rw [Operation.size_work, ih]

/-- After any operations memory is a zero-filled array without end.  A word is read from its 32
bytes, the first one counting most; a slice is the bytes of its range, or nothing when it is empty
or does not end at an offset; all bytes at or beyond the size are zero, and the size is that of
the last resizing, raised by the expansions and the ends of the writes since. -/
theorem memory_is_zero_filled (operations : List Operation) :
    (∀ offset, ((history operations).read offset).toNat =
      ∑ i ∈ Finset.range 32, (imageAfter operations (offset + i)).toNat * 256 ^ (31 - i)) ∧
    (∀ offset size, (history operations).readSlice offset size =
      if size = 0 ∨ 2 ^ 64 ≤ offset + size then []
      else (List.range size).map fun i => imageAfter operations (offset + i)) ∧
    (∀ address, (history operations).size ≤ address → imageAfter operations address = 0) ∧
    (history operations).size = sizeAfter operations := by
  rw [← history_image]
  refine ⟨fun offset => ?_, fun offset size => ?_, fun address => ?_, history_size operations⟩
  · rw [read_eq, Word.toNat_ofBytes (by simp), Bytes.toNat_map_range]
  · exact readSlice_eq _ offset size
  · exact image_of_size_le

end EvmLedger.Vm.Memory
