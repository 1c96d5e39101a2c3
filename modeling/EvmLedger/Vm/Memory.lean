/-
# EvmLedger.Vm.Memory -- the byte-addressed memory of a frame

Memory is an array of bytes that behaves as if it went on with zeros forever.
Reads past the end give zeros and change nothing; writes grow the array to fit.
A range whose end is not a 64-bit offset cannot be written, and reads as empty.
-/

import EvmLedger.Word

namespace EvmLedger.Vm

set_option autoImplicit false

/-- The bytes touched so far. -/
structure Memory where
  data : Array UInt8 := #[]
  deriving DecidableEq, Repr

namespace Memory

def size (m : Memory) : Nat := m.data.size

/-- The number of 32-byte words, rounded up. -/
def words (m : Memory) : Nat := Quantity.wordsFor m.size

/-- Grows to at least `size` bytes; a smaller size changes nothing. -/
def expand (m : Memory) (size : Nat) : Memory :=
  if m.size < size then ⟨m.data ++ Array.replicate (size - m.size) 0⟩ else m

/-- Sets the length to exactly `size` bytes. -/
def resize (m : Memory) (size : Nat) : Memory :=
  if size < m.size then ⟨m.data.take size⟩ else m.expand size

/-- Exactly `size` bytes from `offset` on, whatever the range. -/
def bytesAt (m : Memory) (offset size : Nat) : Bytes :=
  let part := (m.data.extract offset (offset + size)).toList
  part ++ List.replicate (size - part.length) 0

/-- The word in the 32 bytes from `offset` on. -/
def read (m : Memory) (offset : Nat) : Word :=
  Word.ofBytes (m.bytesAt offset 32)

/-- The `size` bytes from `offset` on, or none when the range does not end at an offset. -/
def readSlice (m : Memory) (offset size : Nat) : Bytes :=
  if size = 0 ∨ (Quantity.add? offset size).isNone then [] else m.bytesAt offset size

/-- Replaces the bytes of an array from `offset` on; those past its end are dropped. -/
def overwrite (data : Array UInt8) (offset : Nat) : Bytes → Array UInt8
  | [] => data
  | byte :: rest => overwrite (data.setIfInBounds offset byte) (offset + 1) rest

def writeSlice (m : Memory) (offset : Nat) (bytes : Bytes) : Memory :=
  if bytes.isEmpty then m
  else
    match Quantity.add? offset bytes.length with
    | none => m
    | some stop => ⟨overwrite (m.expand stop).data offset bytes⟩

def write (m : Memory) (offset : Nat) (w : Word) : Memory :=
  m.writeSlice offset w.toBytes

def writeByte (m : Memory) (offset : Nat) (byte : UInt8) : Memory :=
  m.writeSlice offset [byte]

/-- Writes `size` bytes of a source from `start` on; past its end the source reads as zero. -/
def copy (m : Memory) (offset start size : Nat) (source : Bytes) : Memory :=
  if size = 0 then m
  else
    match Quantity.add? offset size with
    | none => m
    | some stop => ⟨overwrite (m.expand stop).data offset (source.window start size)⟩

end Memory

end EvmLedger.Vm
