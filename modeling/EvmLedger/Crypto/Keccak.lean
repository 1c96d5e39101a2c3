/-
# EvmLedger.Crypto.Keccak -- the Keccak-256 sponge

The state is five rows of five 64-bit lanes.  Every step of the permutation is
written on whole rows: column parities are sums of rows, rotations act lane by
lane, lanes move between rows along a fixed pattern, and the only step that is
not linear combines a row with itself shifted by one and by two places.

A message is padded with a byte `0x01`, zeros, and the top bit of its last byte,
and then absorbed in blocks of 136 bytes; the first four lanes of the final
state, each written low byte first, are the digest (`keccak`).
-/

import EvmLedger.Address
import EvmLedger.Hash

namespace EvmLedger.Crypto

set_option autoImplicit false

namespace Keccak

structure Row where
  a : UInt64
  b : UInt64
  c : UInt64
  d : UInt64
  e : UInt64

/-- Five rows. -/
structure State where
  r0 : Row
  r1 : Row
  r2 : Row
  r3 : Row
  r4 : Row

namespace Row

def zero : Row := ⟨0, 0, 0, 0, 0⟩

def xor (x y : Row) : Row :=
  ⟨x.a ^^^ y.a, x.b ^^^ y.b, x.c ^^^ y.c, x.d ^^^ y.d, x.e ^^^ y.e⟩

/-- Rotates a lane to the left by less than 64 places. -/
def rotateLane (lane amount : UInt64) : UInt64 :=
  if amount = 0 then lane else (lane <<< amount) ||| (lane >>> (64 - amount))

def rotate (x by' : Row) : Row :=
  ⟨rotateLane x.a by'.a, rotateLane x.b by'.b, rotateLane x.c by'.c, rotateLane x.d by'.d,
    rotateLane x.e by'.e⟩

/-- Each lane takes the value of the lane after it. -/
def next (x : Row) : Row := ⟨x.b, x.c, x.d, x.e, x.a⟩

/-- Each lane takes the value of the lane before it. -/
def previous (x : Row) : Row := ⟨x.e, x.a, x.b, x.c, x.d⟩

/-- The lane-wise `y` wherever `x` has a zero bit. -/
def andNot (x y : Row) : Row :=
  ⟨~~~x.a &&& y.a, ~~~x.b &&& y.b, ~~~x.c &&& y.c, ~~~x.d &&& y.d, ~~~x.e &&& y.e⟩

/-- Each lane with the next two of its row. -/
def mix (x : Row) : Row :=
  x.xor (andNot x.next x.next.next)

end Row

def State.map (s : State) (f : Row → Row) : State :=
  ⟨f s.r0, f s.r1, f s.r2, f s.r3, f s.r4⟩

def State.xor (s t : State) : State :=
  ⟨s.r0.xor t.r0, s.r1.xor t.r1, s.r2.xor t.r2, s.r3.xor t.r3, s.r4.xor t.r4⟩

def roundConstants : List UInt64 :=
  [0x0000000000000001, 0x0000000000008082, 0x800000000000808a, 0x8000000080008000,
   0x000000000000808b, 0x0000000080000001, 0x8000000080008081, 0x8000000000008009,
   0x000000000000008a, 0x0000000000000088, 0x0000000080008009, 0x000000008000000a,
   0x000000008000808b, 0x800000000000008b, 0x8000000000008089, 0x8000000000008003,
   0x8000000000008002, 0x8000000000000080, 0x000000000000800a, 0x800000008000000a,
   0x8000000080008081, 0x8000000000008080, 0x0000000080000001, 0x8000000080008008]

/-- Adds to every lane the parities of the two neighbouring columns. -/
def mixColumns (s : State) : State :=
  let parity := ((((s.r0.xor s.r1).xor s.r2).xor s.r3).xor s.r4)
  let change := parity.previous.xor (parity.next.rotate ⟨1, 1, 1, 1, 1⟩)
  s.map (·.xor change)

/-- Rotates every lane by its own amount. -/
def rotateLanes (s : State) : State :=
  ⟨s.r0.rotate ⟨0, 1, 62, 28, 27⟩, s.r1.rotate ⟨36, 44, 6, 55, 20⟩, s.r2.rotate ⟨3, 10, 43, 25, 39⟩,
    s.r3.rotate ⟨41, 45, 15, 21, 8⟩, s.r4.rotate ⟨18, 2, 61, 56, 14⟩⟩

def moveLanes (s : State) : State :=
  ⟨⟨s.r0.a, s.r1.b, s.r2.c, s.r3.d, s.r4.e⟩,
    ⟨s.r0.d, s.r1.e, s.r2.a, s.r3.b, s.r4.c⟩,
    ⟨s.r0.b, s.r1.c, s.r2.d, s.r3.e, s.r4.a⟩,
    ⟨s.r0.e, s.r1.a, s.r2.b, s.r3.c, s.r4.d⟩,
    ⟨s.r0.c, s.r1.d, s.r2.e, s.r3.a, s.r4.b⟩⟩

def round (s : State) (constant : UInt64) : State :=
  let mixed := (moveLanes (rotateLanes (mixColumns s))).map Row.mix
  { mixed with r0 := { mixed.r0 with a := mixed.r0.a ^^^ constant } }

/-- All rounds in order. -/
def permute (s : State) : State :=
  roundConstants.foldl round s

/-! ## Absorbing a message -/

/-- Bytes in a block. -/
def rate : Nat := 136

/-- The lane of the first eight bytes, low byte first. -/
def lane (bytes : Bytes) : UInt64 :=
  (bytes.take 8).foldr (fun byte value => (value <<< 8) ||| byte.toUInt64) 0

/-- The row of the first forty bytes; missing bytes read as zero. -/
def row (bytes : Bytes) : Row :=
  ⟨lane bytes, lane (bytes.drop 8), lane (bytes.drop 16), lane (bytes.drop 24),
    lane (bytes.drop 32)⟩

/-- A block of bytes as the lanes it is added to. -/
def block (bytes : Bytes) : State :=
  ⟨row bytes, row (bytes.drop 40), row (bytes.drop 80), row (bytes.drop 120), Row.zero⟩

/-- The message with its padding, a whole number of blocks. -/
def pad (message : Bytes) : Bytes :=
  let free := rate - message.length % rate
  if free = 1 then message ++ [0x81]
  else message ++ 0x01 :: (List.replicate (free - 2) 0 ++ [0x80])

/-- Adds the first `count` blocks in turn, permuting after each. -/
def absorb : Nat → State → Bytes → State
  | 0, s, _ => s
  | count + 1, s, bytes =>
      absorb count (permute (s.xor (block (bytes.take rate)))) (bytes.drop rate)

/-- The first four lanes as bytes. -/
def squeeze (s : State) : Bytes :=
  [s.r0.a, s.r0.b, s.r0.c, s.r0.d].flatMap fun lane => Bytes.digits 8 lane.toNat

end Keccak

def keccak (message : Bytes) : Hash :=
  let blocks := message.length / Keccak.rate + 1
  let start : Keccak.State := ⟨.zero, .zero, .zero, .zero, .zero⟩
  ⟨Word.ofBytes (Keccak.squeeze (Keccak.absorb blocks start (Keccak.pad message)))⟩

/-- The digest of the empty byte string, which is the code hash of an account without code. -/
def emptyCodeHash : Hash :=
  ⟨0xc5d2460186f7233c927e7db2dcc703c0e500b653ca82273b7bfad8045d85a470⟩

/-- The key under which a contract's slot is kept outside the machine: the digest of the address
and the slot key, each widened to 32 bytes. -/
def storageKey (contract : Address) (key : Word) : Hash :=
  keccak (contract.toWord.toBytes ++ key.toBytes)

end EvmLedger.Crypto
