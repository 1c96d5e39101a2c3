/-
# EvmLedger.Proofs.Rlp.RoundTrip -- what is written is read back

A header is written from a length that is computed before the payload is written,
and the lengths of headers inside the payload are computed with it.  Three things
have to agree at every level of a value: the computed length of a header and the
header (`header_length`), the computed length of a value and its written form
(`encodedLength_eq`), and the header and the grammar (`header_announces`).  Then a
written form is a derivation of its value (`derives_encode`), and what is known of
the reader gives the rest: `decode_encode`.
-/
import EvmLedger.Proofs.Rlp.Reader
import Mathlib.Order.Basic

namespace EvmLedger.Rlp

set_option autoImplicit false

/-! ## Headers -/

theorem toNat_lengthBytes {length : Nat} (fits : length < Quantity.bound) :
    (Bytes.ofNat 8 length).dropZeros.toNat = length := by
  have small : length < 256 ^ 8 := fits
  rw [Bytes.toNat_dropZeros, Bytes.toNat_ofNat, Nat.mod_eq_of_lt small]

/-- A long length has as few bytes as it needs. -/
theorem lengthBytes_le_iff {length : Nat} (fits : length < Quantity.bound) (count : Nat) :
    (Bytes.ofNat 8 length).dropZeros.length ≤ count ↔ length < 256 ^ count := by
  rw [Bytes.length_dropZeros_le_iff, ← Bytes.toNat_dropZeros, toNat_lengthBytes fits]

theorem header_short {base : UInt8} {length : Nat} (short : length ≤ shortLimit) :
    header base length = [base + UInt8.ofNat length] :=
  if_pos short

theorem header_long {base : UInt8} {length : Nat} (long : shortLimit < length) :
    header base length =
      (base + 55 + UInt8.ofNat (Bytes.ofNat 8 length).dropZeros.length) ::
        (Bytes.ofNat 8 length).dropZeros :=
  if_neg (Nat.not_le.2 long)

theorem header_length_pos (base : UInt8) (length : Nat) : 1 ≤ (header base length).length := by
  rcases Nat.lt_or_ge shortLimit length with long | short
  · rw [header_long long]
    exact Nat.le_add_left 1 _
  · rw [header_short short]
    exact Nat.le_refl 1

theorem toNat_add_ofNat {byte : UInt8} {n : Nat} (roomy : byte.toNat + n < 256) :
    (byte + UInt8.ofNat n).toNat = byte.toNat + n := by
  rw [UInt8.toNat_add, UInt8.toNat_ofNat', Nat.add_mod_mod]
  exact Nat.mod_eq_of_lt roomy

theorem header_announces (base : UInt8) (roomy : base.toNat + 63 < 256) {length : Nat}
    (fits : length < Quantity.bound) : Announces base.toNat (header base length) length := by
  rcases Nat.lt_or_ge shortLimit length with long | short
  · have few : (Bytes.ofNat 8 length).dropZeros.length ≤ 8 := (lengthBytes_le_iff fits 8).2 fits
    have some_byte : ¬(Bytes.ofNat 8 length).dropZeros.length ≤ 0 := fun none =>
      Nat.not_lt_zero _ (Nat.lt_of_lt_of_le long
        (Nat.le_of_lt_succ ((lengthBytes_le_iff fits 0).1 none)))
    have part : (base + 55).toNat = base.toNat + 55 := toNat_add_ofNat (n := 55) (by omega)
    have told : (base + 55 + UInt8.ofNat (Bytes.ofNat 8 length).dropZeros.length).toNat =
        base.toNat + 55 + (Bytes.ofNat 8 length).dropZeros.length := by
      rw [toNat_add_ofNat (by omega), part]
    have announced := Announces.long (Nat.not_le.1 some_byte) few told
    rwa [toNat_lengthBytes fits, ← header_long long] at announced
  · rw [header_short short]
    exact .short short (toNat_add_ofNat (Nat.lt_of_le_of_lt
      (Nat.add_le_add_left (Nat.le_trans short (by decide)) _) roomy))

theorem header_length (base : UInt8) {length : Nat} (fits : length < Quantity.bound) :
    (header base length).length = headerLength length := by
  rcases Nat.lt_or_ge shortLimit length with long | short
  · have nonzero : length ≠ 0 := Nat.ne_of_gt (Nat.lt_of_le_of_lt (Nat.zero_le _) long)
    have top : length.log2 < 64 := (Nat.log2_lt nonzero).2 fits
    -- a length takes one byte for every eight bits begun
    have count : (Bytes.ofNat 8 length).dropZeros.length = length.log2 / 8 + 1 := by
      refine eq_of_forall_ge_iff fun limit => ?_
      rw [lengthBytes_le_iff fits, show (256 : Nat) = 2 ^ 8 from rfl, ← Nat.pow_mul,
        ← Nat.log2_lt nonzero]
      omega
    rw [header_long long, List.length_cons, count, headerLength, if_neg (Nat.not_le.2 long),
      Quantity.leadingZeros, if_neg nonzero]
    omega
  · rw [header_short short, headerLength, if_pos short]
    rfl

theorem header_length_le (base : UInt8) {length : Nat} (fits : length < Quantity.bound) :
    (header base length).length ≤ 9 := by
  rw [header_length base fits, headerLength]
  split
  · decide
  · omega

/-! ## Written forms -/

theorem encodeBytes_single {byte : UInt8} (small : byte < stringBase) :
    encodeBytes [byte] = [byte] :=
  if_pos small

theorem encodeBytes_headed {bytes : Bytes} (headed : ∀ byte, bytes = [byte] → ¬byte < stringBase) :
    encodeBytes bytes = header stringBase bytes.length ++ bytes := by
  unfold encodeBytes
  split
  · rename_i byte
    exact if_neg (headed byte rfl)
  · rfl

/-- A byte string stands for itself or has a header. -/
theorem encodeBytes_cases (bytes : Bytes) :
    (∃ byte, bytes = [byte] ∧ byte < stringBase) ∨
      ∀ byte, bytes = [byte] → ¬byte < stringBase := by
  by_cases single : ∃ byte, bytes = [byte] ∧ byte < stringBase
  · exact Or.inl single
  · exact Or.inr fun byte same small => single ⟨byte, same, small⟩

theorem length_encode_pos (item : Item) : 1 ≤ (encode item).length := by
  cases item with
  | string bytes =>
      rw [encode]
      rcases encodeBytes_cases bytes with ⟨byte, rfl, small⟩ | headed
      · rw [encodeBytes_single small]
        exact Nat.le_refl 1
      · rw [encodeBytes_headed headed, List.length_append]
        exact Nat.le_trans (header_length_pos _ _) (Nat.le_add_right _ _)
  | list items =>
      rw [encode, List.length_append]
      exact Nat.le_trans (header_length_pos _ _) (Nat.le_add_right _ _)

theorem encodeAll_eq_flatMap (items : List Item) : encodeAll items = items.flatMap encode := by
  induction items with
  | nil => rfl
  | cons item rest ih => rw [encodeAll, ih, List.flatMap_cons]

theorem length_encodeAll_append (items others : List Item) :
    (encodeAll (items ++ others)).length = (encodeAll items).length + (encodeAll others).length := by
  simp only [encodeAll_eq_flatMap, List.flatMap_append, List.length_append]

theorem encodedLength_string_headed {bytes : Bytes}
    (headed : ∀ byte, bytes = [byte] → ¬byte < stringBase) :
    encodedLength (.string bytes) = headerLength bytes.length + bytes.length := by
  match bytes, headed with
  | [], _ => rfl
  | [byte], headed => exact if_neg (headed byte rfl)
  | _ :: _ :: _, _ => rfl

mutual

theorem encodedLength_eq : (item : Item) → (encode item).length < Quantity.bound →
    encodedLength item = (encode item).length
  | .string bytes, fits => by
      rw [encode] at fits ⊢
      rcases encodeBytes_cases bytes with ⟨byte, rfl, small⟩ | headed
      · rw [encodeBytes_single small]
        exact if_pos small
      · rw [encodeBytes_headed headed, List.length_append] at fits ⊢
        rw [encodedLength_string_headed headed, header_length _ (by omega)]
  | .list items, fits => by
      -- the payload is in range even though the header is written from its computed length
      rw [encode, List.length_append] at fits ⊢
      have payload := payloadLength_eq items (by omega)
      rw [encodedLength, header_length _ (by omega), payload]

theorem payloadLength_eq : (items : List Item) → (encodeAll items).length < Quantity.bound →
    payloadLength items = (encodeAll items).length
  | [], _ => rfl
  | item :: rest, fits => by
      rw [encodeAll, List.length_append] at fits ⊢
      rw [payloadLength, encodedLength_eq item (by omega), payloadLength_eq rest (by omega)]

end

theorem encode_list {items : List Item} (fits : (encodeAll items).length < Quantity.bound) :
    encode (.list items) = header listBase (encodeAll items).length ++ encodeAll items := by
  rw [encode, payloadLength_eq items fits]

theorem derives_encodeBytes {bytes : Bytes} (fits : (encodeBytes bytes).length < Quantity.bound) :
    Derives (.string bytes) (encodeBytes bytes) := by
  rcases encodeBytes_cases bytes with ⟨byte, rfl, small⟩ | headed
  · rw [encodeBytes_single small]
    exact .byte (UInt8.lt_iff_toNat_lt.1 small)
  · rw [encodeBytes_headed headed] at fits ⊢
    rw [List.length_append] at fits
    exact .string (header_announces stringBase (by decide) (by omega))

mutual

theorem derives_encode : (item : Item) → (encode item).length < Quantity.bound →
    Derives item (encode item)
  | .string bytes, fits => by
      rw [encode] at fits ⊢
      exact derives_encodeBytes fits
  | .list items, fits => by
      have payload : (encodeAll items).length < Quantity.bound := by
        rw [encode, List.length_append] at fits
        omega
      have each := derives_encodeAll items payload
      have announced := header_announces listBase (by decide) payload
      rw [encode_list payload]
      rw [encodeAll_eq_flatMap] at announced ⊢
      exact .list_map each announced

theorem derives_encodeAll : (items : List Item) → (encodeAll items).length < Quantity.bound →
    ∀ item ∈ items, Derives item (encode item)
  | [], _ => nofun
  | item :: rest, fits => by
      rw [encodeAll, List.length_append] at fits
      exact List.forall_mem_cons.2
        ⟨derives_encode item (by omega), derives_encodeAll rest (by omega)⟩

end

/-! ## Round trip -/

theorem decodeAll_flatMap_encode {items : List Item}
    (fits : ∀ item ∈ items, (encode item).length < Quantity.bound) :
    decodeAll (items.flatMap encode) =
      if deepest items ≤ maxDepth then .ok items else .error (.tooDeep maxDepth) := by
  have read := decodeAll_derived (items.map fun item => (item, encode item))
  simp only [List.forall_mem_map, List.flatMap_map, List.map_map, Function.comp_def,
    List.map_id'] at read
  exact read (fun item among => derives_encode item (fits item among)) fits

theorem length_encode_le_of_mem {item : Item} {items : List Item} (among : item ∈ items) :
    (encode item).length ≤ (encodeAll items).length := by
  induction items with
  | nil => cases among
  | cons first rest ih =>
      rw [encodeAll, List.length_append]
      cases among with
      | head => exact Nat.le_add_right _ _
      | tail _ among => exact Nat.le_trans (ih among) (Nat.le_add_left _ _)

theorem decodeAll_encodeAll {items : List Item} (fits : (encodeAll items).length < Quantity.bound) :
    decodeAll (encodeAll items) =
      if deepest items ≤ maxDepth then .ok items else .error (.tooDeep maxDepth) := by
  have each : ∀ item ∈ items, (encode item).length < Quantity.bound := fun item among =>
    Nat.lt_of_le_of_lt (length_encode_le_of_mem among) fits
  rw [encodeAll_eq_flatMap]
  exact decodeAll_flatMap_encode each

/-- Lists that are written the same hold the same values: their headers are the same, and what is
behind the header is read back. -/
theorem encode_list_inj {items others : List Item} (fits : (encodeAll items).length < Quantity.bound)
    (others_fit : (encodeAll others).length < Quantity.bound) (shallow : deepest items ≤ maxDepth)
    (others_shallow : deepest others ≤ maxDepth)
    (same : encode (.list items) = encode (.list others)) : items = others := by
  rw [encode_list fits, encode_list others_fit] at same
  have heads := (header_announces listBase (by decide) fits).head_eq
    (header_announces listBase (by decide) others_fit) same
  have payloads := List.append_inj_right same (congrArg List.length heads)
  have read := decodeAll_encodeAll fits
  rw [payloads, decodeAll_encodeAll others_fit, if_pos shallow, if_pos others_shallow] at read
  injection read with read
  exact read.symm

/-- What is written is read back as long as lists are nested at most 1024 deep in it, and is
said to be too deep otherwise; values written one after the other are read one after the other. -/
theorem decode_encode :
    (∀ item : Item, (encode item).length < Quantity.bound →
      encodedLength item = (encode item).length ∧
      decode (encode item) = if item.depth ≤ 1024 then .ok item else .error (.tooDeep 1024)) ∧
    ∀ items : List Item,
      (∀ item ∈ items, (encode item).length < Quantity.bound ∧ item.depth ≤ 1024) →
      decodeAll (items.flatMap encode) = .ok items := by
  constructor
  · intro item fits
    exact ⟨encodedLength_eq item fits, decode_derived (derives_encode item fits) fits⟩
  · intro items each
    rw [decodeAll_flatMap_encode fun item among => (each item among).1]
    exact if_pos (deepest_le_iff.2 fun item among => (each item among).2)

/-! ## At the limit -/

/-- The empty byte string in so many lists. -/
def Item.nested : Nat → Item
  | 0 => .empty
  | count + 1 => .list [nested count]

theorem Item.depth_nested (count : Nat) : (nested count).depth = count := by
  induction count with
  | zero => rfl
  | succ count ih => rw [nested, depth, deepest, deepest, ih, Nat.max_zero]

theorem length_encode_nested {count : Nat} (few : count ≤ 1025) :
    (encode (Item.nested count)).length ≤ 9 * count + 1 := by
  induction count with
  | zero => decide
  | succ count ih =>
      have inner := ih (by omega)
      have payload : encodeAll [Item.nested count] = encode (Item.nested count) := List.append_nil _
      have fits : (encodeAll [Item.nested count]).length < Quantity.bound := by
        rw [payload]
        exact Nat.lt_of_le_of_lt (Nat.le_trans inner (by omega : _ ≤ 9226)) (by decide)
      have head := header_length_le listBase fits
      rw [Item.nested, encode_list fits, List.length_append]
      rw [payload] at head ⊢
      omega

theorem encode_nested_lt {count : Nat} (few : count ≤ 1025) :
    (encode (Item.nested count)).length < Quantity.bound :=
  Nat.lt_of_le_of_lt (Nat.le_trans (length_encode_nested few) (by omega : _ ≤ 9226)) (by decide)

/-- Lists nested 1024 deep are read back, also beside each other; nested once more, they are not. -/
theorem decode_encode_limit :
    decode (encode (.nested 1024)) = .ok (.nested 1024) ∧
    decode (encode (.nested 1025)) = .error (.tooDeep 1024) ∧
    decodeAll ([Item.nested 1024, .list [], .nested 1024].flatMap encode) =
      .ok [.nested 1024, .list [], .nested 1024] := by
  have within := (decode_encode.1 (.nested 1024) (encode_nested_lt (by decide))).2
  have beyond := (decode_encode.1 (.nested 1025) (encode_nested_lt (by decide))).2
  rw [Item.depth_nested] at within beyond
  have deep : (encode (Item.nested 1024)).length < Quantity.bound ∧ (Item.nested 1024).depth ≤ 1024 :=
    ⟨encode_nested_lt (by decide), Nat.le_of_eq (Item.depth_nested 1024)⟩
  refine ⟨within, beyond, decode_encode.2 _ ?_⟩
  simp only [List.forall_mem_cons]
  exact ⟨deep, by decide, deep, nofun⟩

end EvmLedger.Rlp
