/-
# EvmLedger.Proofs.Memory.Image -- memory as a function of addresses

Memory behaves as if it went on with zeros forever, so what it holds is one total
function of addresses, its `image`.  Reading depends on nothing else (`read_eq`,
`readSlice_eq`, `readSlice_congr`), growing leaves it alone (`image_expand`), and a write
replaces the bytes of one range (`Image.fill`) or, if the range does not end at an
offset, none (`image_writeSlice`, `image_copy`).

Bytes at or beyond the size are zero in the image (`image_of_size_le`), so memory that
is cut off and grows again shows zeros there and not what it once held.
-/
import EvmLedger.Proofs.Bytes
import EvmLedger.Proofs.Memory

namespace EvmLedger.Vm

set_option autoImplicit false

/-- The byte at every address. -/
abbrev Image := Nat → UInt8

namespace Image

variable {image : Image} {offset size : Nat} {byte byte' : Nat → UInt8}

/-- The image with `size` bytes from `offset` on replaced, the `i`-th of them by `byte i`. -/
def fill (image : Image) (offset size : Nat) (byte : Nat → UInt8) : Image := fun address =>
  if offset ≤ address ∧ address < offset + size then byte (address - offset) else image address

@[simp] theorem fill_nothing : image.fill offset 0 byte = image := by
  funext address
  exact if_neg (by omega)

theorem fill_congr (same : ∀ i < size, byte i = byte' i) :
    image.fill offset size byte = image.fill offset size byte' := by
  funext address
  unfold fill
  split
  · exact same _ (by omega)
  · rfl

theorem fill_inside {i : Nat} (inside : i < size) :
    image.fill offset size byte (offset + i) = byte i := by
  unfold fill
  rw [if_pos (by omega), Nat.add_sub_cancel_left]

end Image

namespace Memory

variable {m m' : Memory} {offset size start stop address : Nat} {bytes source : Bytes}

/-- What memory holds at every address, zero where it does not reach. -/
def image (m : Memory) : Image := fun address => (m.data[address]?).getD 0

theorem image_of_size_le (beyond : m.size ≤ address) : m.image address = 0 := by
  have beyond : m.data.size ≤ address := beyond
  simp [image, beyond]

/-! ## Reading -/

theorem bytesAt_eq_map (m : Memory) (offset size : Nat) :
    m.bytesAt offset size = (List.range size).map fun i => m.image (offset + i) := by
  have window : m.bytesAt offset size = Bytes.window m.data.toList offset size := by
    unfold bytesAt Bytes.window
    rw [Array.toList_extract, List.extract_eq_take_drop, Nat.add_sub_cancel_left]
  rw [window, Bytes.window_eq_map]
  refine List.map_congr_left fun i _ => ?_
  rw [List.getD_eq_getElem?_getD, Array.getElem?_toList]
  rfl

theorem read_eq (m : Memory) (offset : Nat) :
    m.read offset = Word.ofBytes ((List.range 32).map fun i => m.image (offset + i)) := by
  rw [read, bytesAt_eq_map]

theorem readSlice_eq (m : Memory) (offset size : Nat) :
    m.readSlice offset size =
      if size = 0 ∨ Quantity.bound ≤ offset + size then []
      else (List.range size).map fun i => m.image (offset + i) := by
  rw [readSlice, bytesAt_eq_map, Quantity.add?]
  by_cases addressable : offset + size < Quantity.bound
  · simp [addressable, Nat.not_le.2 addressable]
  · simp [addressable, Nat.not_lt.1 addressable]

theorem read_congr (same : m'.image = m.image) (offset : Nat) : m'.read offset = m.read offset := by
  rw [read_eq, read_eq, same]

theorem readSlice_congr (same : m'.image = m.image) (offset size : Nat) :
    m'.readSlice offset size = m.readSlice offset size := by
  rw [readSlice_eq, readSlice_eq, same]

/-! ## Changing the size -/

@[simp] theorem image_expand (m : Memory) (size : Nat) : (m.expand size).image = m.image := by
  funext address
  unfold expand
  split
  case isTrue short =>
    have short : m.data.size < size := short
    simp only [image, Array.getElem?_append, Array.getElem?_replicate]
    by_cases stored : address < m.data.size
    · rw [if_pos stored]
    · rw [if_neg stored, Array.getElem?_eq_none (Nat.not_lt.1 stored)]
      split <;> rfl
  case isFalse => rfl

theorem image_resize (m : Memory) (size address : Nat) :
    (m.resize size).image address = if address < size then m.image address else 0 := by
  by_cases kept : address < size
  · rw [if_pos kept]
    unfold resize
    split
    · simp only [image, Array.take_eq_extract, Array.getElem?_extract]
      split
      · rw [Nat.zero_add]
      · rw [Array.getElem?_eq_none (by omega)]
    · rw [image_expand]
  · rw [if_neg kept]
    exact image_of_size_le (by rw [size_resize]; omega)

/-! ## Writing -/

theorem image_overwrite (data : Array UInt8) (offset : Nat) (bytes : Bytes)
    (inside : offset + bytes.length ≤ data.size) :
    (Memory.mk (overwrite data offset bytes)).image =
      (Memory.mk data).image.fill offset bytes.length fun i => bytes.getD i 0 := by
  induction bytes generalizing data offset with
  | nil => exact Image.fill_nothing.symm
  | cons byte rest ih =>
      rw [List.length_cons] at inside
      rw [overwrite, ih _ _ (by rw [Array.size_setIfInBounds]; omega)]
      funext address
      simp only [Image.fill, image, Array.getElem?_setIfInBounds, List.length_cons]
      by_cases first : address = offset
      · subst first
        have here : address < data.size := by omega
        simp [here]
      · by_cases later : offset + 1 ≤ address ∧ address < offset + 1 + rest.length
        · have place : address - offset = (address - (offset + 1)) + 1 := by omega
          rw [if_pos later, if_pos (by omega), place, List.getD_cons_succ]
        · rw [if_neg later, if_neg (Ne.symm first), if_neg (by omega)]

/-- A write replaces the bytes of its range, if the range ends at an offset. -/
theorem image_writeSlice (m : Memory) (offset : Nat) (bytes : Bytes) :
    (m.writeSlice offset bytes).image =
      if offset + bytes.length < Quantity.bound then
        m.image.fill offset bytes.length fun i => bytes.getD i 0
      else m.image := by
  have inside : offset + bytes.length ≤ (m.expand (offset + bytes.length)).size := by
    rw [size_expand]
    omega
  rw [writeSlice_eq]
  by_cases addressable : offset + bytes.length < Quantity.bound
  · by_cases empty : bytes.length = 0
    · simp [empty]
    · rw [if_pos ⟨empty, addressable⟩, if_pos addressable, image_overwrite _ _ _ inside]
      exact congrArg (Image.fill · _ _ _) (image_expand m _)
  · rw [if_neg fun both => addressable both.2, if_neg addressable]

/-- A copy replaces the bytes of its range by those of the source, which goes on with zeros. -/
theorem image_copy (m : Memory) (offset start size : Nat) (source : Bytes) :
    (m.copy offset start size source).image =
      if offset + size < Quantity.bound then
        m.image.fill offset size fun i => source.getD (start + i) 0
      else m.image := by
  rw [copy_eq_writeSlice, image_writeSlice, Bytes.window_length]
  split
  · exact Image.fill_congr fun i inside => Bytes.getD_window inside
  · rfl

end Memory

end EvmLedger.Vm
