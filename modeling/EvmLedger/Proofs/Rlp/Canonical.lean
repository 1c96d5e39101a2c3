/-
# EvmLedger.Proofs.Rlp.Canonical -- the written form is the shortest one

A value may be read from many byte strings.  The one that is written is the
shortest of them, and the only one of its length (`NoLonger`).  For a header this
holds as its length bytes are those of any other header for the same length with
the zeros in front dropped (`header_noLonger`).  For a list it takes both of its
parts: a shorter payload never needs a longer header (`header_length_mono`).

`decode_iff_derives` puts the reader and the writer together: what is read is what
the grammar derives, and what is written is the canonical one among its
derivations.
-/
import EvmLedger.Proofs.Rlp.RoundTrip

namespace EvmLedger.Rlp

set_option autoImplicit false

/-! ## Comparing lengths -/

/-- A byte string is at most as long as another, and only as long as that when it is the same. -/
structure NoLonger (bytes other : Bytes) : Prop where
  length_le : bytes.length ≤ other.length
  unique : bytes.length = other.length → bytes = other

namespace NoLonger

variable {bytes other rest otherRest : Bytes}

theorem refl (bytes : Bytes) : NoLonger bytes bytes := ⟨Nat.le_refl _, fun _ => rfl⟩

theorem of_length_lt (shorter : bytes.length < other.length) : NoLonger bytes other :=
  ⟨Nat.le_of_lt shorter, fun same => absurd same (Nat.ne_of_lt shorter)⟩

theorem append (front : NoLonger bytes other) (back : NoLonger rest otherRest) :
    NoLonger (bytes ++ rest) (other ++ otherRest) := by
  have front_le := front.length_le
  have back_le := back.length_le
  constructor
  · rw [List.length_append, List.length_append]
    omega
  · rw [List.length_append, List.length_append]
    intro same
    rw [front.unique (by omega), back.unique (by omega)]

/-- The first bytes are determined by what follows them. -/
theorem cons {first otherFirst : UInt8} (back : NoLonger rest otherRest)
    (same_first : rest = otherRest → first = otherFirst) :
    NoLonger (first :: rest) (otherFirst :: otherRest) := by
  have back_le := back.length_le
  constructor
  · exact Nat.succ_le_succ back_le
  · intro same
    have same_rest := back.unique (Nat.succ_inj.1 same)
    rw [same_first same_rest, same_rest]

theorem flatMap {parts : List (Item × Bytes)}
    (each : ∀ part ∈ parts, NoLonger (encode part.1) part.2) :
    NoLonger (encodeAll (parts.map Prod.fst)) (parts.flatMap Prod.snd) := by
  induction parts with
  | nil => exact refl []
  | cons part parts ih =>
      obtain ⟨here, rest⟩ := List.forall_mem_cons.1 each
      exact here.append (ih rest)

end NoLonger

/-! ## Headers -/

theorem eq_add_ofNat {byte first : UInt8} {n : Nat} (roomy : byte.toNat + n < 256)
    (told : first.toNat = byte.toNat + n) : byte + UInt8.ofNat n = first :=
  UInt8.toNat_inj.1 ((toNat_add_ofNat roomy).trans told.symm)

/-- Written for the length that it is read as, the bytes of a length only lose zeros in front. -/
theorem lengthBytes_toNat {digits : Bytes} (limited : digits.length ≤ 8) :
    (Bytes.ofNat 8 digits.toNat).dropZeros = digits.dropZeros := by
  rw [Bytes.ofNat_toNat_of_le limited, Bytes.dropZeros_padLeft]

theorem header_noLonger (base : UInt8) (roomy : base.toNat + 63 < 256) {length : Nat} {head : Bytes}
    (announced : Announces base.toNat head length) : NoLonger (header base length) head := by
  cases announced with
  | short limited told =>
      rw [header_short limited, eq_add_ofNat (by omega) told]
      exact .refl _
  | @long first digits present limited told =>
      rcases Nat.lt_or_ge shortLimit digits.toNat with long | short
      · have suffix := Bytes.dropZeros_suffix digits
        have part : (base + 55).toNat = base.toNat + 55 := toNat_add_ofNat (n := 55) (by omega)
        rw [header_long long, lengthBytes_toNat limited]
        refine .cons ⟨suffix.length_le, suffix.eq_of_length⟩ fun whole => ?_
        rw [whole]
        exact eq_add_ofNat (by omega) (by omega)
      · rw [header_short short]
        exact .of_length_lt (Nat.succ_lt_succ present)

theorem header_length_mono (base : UInt8) {length greater : Nat} (le : length ≤ greater)
    (fits : greater < Quantity.bound) :
    (header base length).length ≤ (header base greater).length := by
  rcases Nat.lt_or_ge shortLimit length with long | short
  · have needed := (lengthBytes_le_iff fits _).1 (Nat.le_refl _)
    rw [header_long long, header_long (Nat.lt_of_lt_of_le long le)]
    exact Nat.succ_le_succ
      ((lengthBytes_le_iff (Nat.lt_of_le_of_lt le fits) _).2 (Nat.lt_of_le_of_lt le needed))
  · rw [header_short short]
    exact header_length_pos base greater

/-! ## Values -/

/-- A payload that is no longer, behind a header of its own. -/
theorem NoLonger.headed {head payload other : Bytes} (inner : NoLonger payload other)
    (base : UInt8) (roomy : base.toNat + 63 < 256) (announced : Announces base.toNat head other.length) :
    NoLonger (header base payload.length ++ payload) (head ++ other) := by
  have outer := header_noLonger base roomy announced
  have payload_le := inner.length_le
  have outer_le := outer.length_le
  have mono := header_length_mono base payload_le announced.lt_bound
  constructor
  · rw [List.length_append, List.length_append]
    omega
  · rw [List.length_append, List.length_append]
    intro same
    -- neither part is longer, so both are as long: first the payload, then its header
    have same_payload := inner.unique (by omega)
    subst same_payload
    rw [outer.unique (by omega)]

theorem encode_noLonger {item : Item} {bytes : Bytes} (derived : Derives item bytes)
    (fits : bytes.length < Quantity.bound) : NoLonger (encode item) bytes := by
  induction derived with
  | byte small =>
      rw [encode, encodeBytes_single (UInt8.lt_iff_toNat_lt.2 small)]
      exact .refl _
  | @string head payload announced =>
      rw [encode]
      rcases encodeBytes_cases payload with ⟨byte, rfl, small⟩ | headed
      · rw [encodeBytes_single small]
        refine .of_length_lt ?_
        rw [List.length_append]
        exact Nat.lt_add_of_pos_left announced.pos
      · rw [encodeBytes_headed headed]
        exact (NoLonger.refl payload).headed stringBase (by decide) announced
  | @list head parts each announced ih =>
      have payload_fits : (parts.flatMap Prod.snd).length < Quantity.bound := announced.lt_bound
      have inner : NoLonger (encodeAll (parts.map Prod.fst)) (parts.flatMap Prod.snd) :=
        .flatMap fun part among =>
          ih part among (Nat.lt_of_le_of_lt (length_le_of_mem_parts among) payload_fits)
      rw [encode_list (Nat.lt_of_le_of_lt inner.length_le payload_fits)]
      exact inner.headed listBase (by decide) announced

/-! ## Shorter values -/

theorem length_encodeBytes_le (bytes : Bytes) :
    (encodeBytes bytes).length ≤ (header stringBase bytes.length).length + bytes.length := by
  rcases encodeBytes_cases bytes with ⟨byte, rfl, small⟩ | headed
  · rw [encodeBytes_single small]
    exact Nat.le_add_left 1 _
  · rw [encodeBytes_headed headed, List.length_append]

theorem length_encodeBytes_le_of_short {bytes : Bytes} (short : bytes.length ≤ shortLimit) :
    (encodeBytes bytes).length ≤ 1 + bytes.length := by
  have written := length_encodeBytes_le bytes
  rwa [header_short short, List.length_singleton] at written

/-- A byte string is written no longer when bytes in front are dropped. -/
theorem length_encodeBytes_mono {short long : Bytes} (suffix : short <:+ long)
    (fits : long.length < Quantity.bound) :
    (encodeBytes short).length ≤ (encodeBytes long).length := by
  rcases Nat.lt_or_eq_of_le suffix.length_le with shorter | same
  · have mono := header_length_mono stringBase (Nat.le_of_lt shorter) fits
    have within := length_encodeBytes_le short
    rcases encodeBytes_cases long with ⟨byte, rfl, small⟩ | headed
    · -- all that can be left of a single byte is nothing, which is written as one byte
      obtain rfl : short = [] := List.length_eq_zero_iff.1 (Nat.lt_one_iff.1 shorter)
      rw [encodeBytes_single small]
      exact (by decide : (encodeBytes []).length ≤ 1)
    · rw [encodeBytes_headed headed, List.length_append]
      omega
  · rw [suffix.eq_of_length same]

/-- A list of values is written no longer when each of its values is. -/
theorem length_encode_list_mono {items longer : List Item}
    (each : List.Forall₂ (fun item other => (encode item).length ≤ (encode other).length) items
      longer) (fits : (encodeAll longer).length < Quantity.bound) :
    (encode (.list items)).length ≤ (encode (.list longer)).length := by
  have payload : (encodeAll items).length ≤ (encodeAll longer).length := by
    clear fits
    induction each with
    | nil => exact Nat.le_refl _
    | cons here _ ih =>
        simp only [encodeAll, List.length_append]
        omega
  have mono := header_length_mono listBase payload fits
  rw [encode_list fits, encode_list (Nat.lt_of_le_of_lt payload fits)]
  simp only [List.length_append]
  omega

/-! ## Reader and writer -/

theorem noLonger_of_decode {data : Bytes} {item : Item} (read : decode data = .ok item) :
    NoLonger (encode item) data :=
  encode_noLonger (derives_of_decode read).1 (length_lt_of_decode read)

/-- The reader says that an item is missing where there is nothing to read, and only there.  It
reads what the grammar derives with lists nested at most 1024 deep, and nothing else.  Of the
byte strings that it reads as a value, the written form is the shortest, and the only one of its
length. -/
theorem decode_iff_derives (data : Bytes) (fits : data.length < Quantity.bound) :
    (decode data = .error .empty ↔ data = []) ∧
    ∀ item, (decode data = .ok item ↔ Derives item data ∧ item.depth ≤ 1024) ∧
      (decode data = .ok item →
        decode (encode item) = .ok item ∧
        (encode item).length ≤ data.length ∧
        ((encode item).length = data.length → encode item = data)) := by
  refine ⟨decode_eq_empty_iff data, fun item => ⟨⟨derives_of_decode, ?_⟩, fun read => ?_⟩⟩
  · rintro ⟨derived, shallow⟩
    rw [decode_derived derived fits]
    exact if_pos shallow
  · obtain ⟨derived, shallow⟩ := derives_of_decode read
    have shortest := encode_noLonger derived fits
    have encode_fits := Nat.lt_of_le_of_lt shortest.length_le fits
    refine ⟨?_, shortest.length_le, shortest.unique⟩
    rw [decode_derived (derives_encode item encode_fits) encode_fits]
    exact if_pos shallow

/-- A list with long lengths where short ones would do, one of them with a zero in front, and with
a header for a byte that needs none: it is read, and its value is written with four bytes less. -/
theorem decode_iff_derives_roundabout :
    decode [0xf9, 0, 7, 0xb8, 3, 100, 111, 103, 0x81, 5] =
      .ok (.list [.string [100, 111, 103], .string [5]]) ∧
    Derives (.list [.string [100, 111, 103], .string [5]])
      [0xf9, 0, 7, 0xb8, 3, 100, 111, 103, 0x81, 5] ∧
    encode (.list [.string [100, 111, 103], .string [5]]) = [0xc5, 0x83, 100, 111, 103, 5] ∧
    decode [0xc5, 0x83, 100, 111, 103, 5] = .ok (.list [.string [100, 111, 103], .string [5]]) := by
  have read : decode [0xf9, 0, 7, 0xb8, 3, 100, 111, 103, 0x81, 5] =
      .ok (.list [.string [100, 111, 103], .string [5]]) := rfl
  have exactly := (decode_iff_derives [0xf9, 0, 7, 0xb8, 3, 100, 111, 103, 0x81, 5]
    (by decide)).2 (.list [.string [100, 111, 103], .string [5]])
  exact ⟨read, (exactly.1.1 read).1, rfl, (exactly.2 read).1⟩

end EvmLedger.Rlp
