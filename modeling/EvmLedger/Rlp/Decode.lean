/-
# EvmLedger.Rlp.Decode -- reading value trees

The first byte of an item tells what it is.  Reading is permissive: a length may
be written with leading zeros, or in the long form where the short one would do.
It is not lenient otherwise: a payload must be there in full, the items of a
list must fill its payload exactly, and lists nest at most `maxDepth` deep.

Recursion is on the depth still allowed; within one payload it is on the number
of bytes, of which every item takes at least one.
-/

import EvmLedger.Rlp.Encode

namespace EvmLedger.Rlp

set_option autoImplicit false

def maxDepth : Nat := 1024

/-- The `length` bytes that follow the first `start` bytes of the item at `offset`. -/
def slice (data : Bytes) (start length offset : Nat) : Except Error Bytes :=
  if Quantity.bound ≤ start + length then .error (.lengthOverflow length)
  else
    let part := (data.drop start).take length
    if part.length = length then .ok part
    else .error (.inputTooShort offset length (data.length - start))

/-- The payload length written in the `count` bytes after the header byte. -/
def readLength (data : Bytes) (count offset : Nat) : Except Error Nat :=
  (slice data 1 count offset).map Bytes.toNat

/-- Items one after the other until the data ends, at most `fuel` of them.  `readItem` reads the
item at an offset and tells how many bytes it took; `done` holds the items so far, last one
first. -/
def readAll (readItem : Nat → Bytes → Except Error (Item × Nat)) :
    (fuel offset : Nat) → Bytes → List Item → Except Error (List Item)
  | _, _, [], done => .ok done.reverse
  | 0, _, _ :: _, _ => .error .empty
  | fuel + 1, offset, byte :: rest, done => do
      let (item, used) ← readItem offset (byte :: rest)
      readAll readItem fuel (offset + used) ((byte :: rest).drop used) (item :: done)

/-- The item at the start of the data and the number of bytes it takes, given how to read the
payload of a list. -/
def readItemWith (readPayload : Nat → Bytes → Except Error (List Item)) (offset : Nat)
    (data : Bytes) : Except Error (Item × Nat) :=
  match data with
  | [] => .error .empty
  | first :: _ =>
      if first < 0x80 then .ok (.string [first], 1)
      else if first ≤ 0xb7 then do
        let length := (first - 0x80).toNat
        let payload ← slice data 1 length offset
        .ok (.string payload, 1 + length)
      else if first ≤ 0xbf then do
        let count := (first - 0xb7).toNat
        let length ← readLength data count offset
        let payload ← slice data (1 + count) length offset
        .ok (.string payload, 1 + count + length)
      else if first ≤ 0xf7 then do
        let length := (first - 0xc0).toNat
        let payload ← slice data 1 length offset
        let items ← readPayload (offset + 1) payload
        .ok (.list items, 1 + length)
      else do
        let count := (first - 0xf7).toNat
        let length ← readLength data count offset
        let payload ← slice data (1 + count) length offset
        let items ← readPayload (offset + 1 + count) payload
        .ok (.list items, 1 + count + length)

/-- The item at the start of the data and the number of bytes it takes; lists may nest
`depth` deep in it. -/
def readItem : (depth offset : Nat) → Bytes → Except Error (Item × Nat)
  | 0 => readItemWith fun _ _ => .error (.tooDeep maxDepth)
  | depth + 1 => readItemWith fun offset payload =>
      readAll (readItem depth) payload.length offset payload []

def decode (data : Bytes) : Except Error Item := do
  let (item, used) ← readItem maxDepth 0 data
  if used = data.length then .ok item else .error (.trailingBytes (data.length - used))

/-- The items that the data holds one after the other. -/
def decodeAll (data : Bytes) : Except Error (List Item) :=
  readAll (readItem maxDepth) data.length 0 data []

end EvmLedger.Rlp
