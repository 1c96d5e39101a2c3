/-
# EvmLedger.Proofs.Rlp.Tree -- trees shown and read back

The tree of a value has an array for each list and digits for each byte string, so the
value can be read off it again, at every depth (`ofJson_toJson`).  A command shows the
tree of what it was given to read.  Written again, the value has its canonical form,
which is the form that it was read from if that is written for any value at all
(`encode_eq_iff_of_decode`).  `tree_lossless` puts them together with the reader of digits.
-/
import EvmLedger.CommandLine.Respond
import EvmLedger.Proofs.Hex
import EvmLedger.Proofs.Rlp.Canonical

namespace EvmLedger.Rlp

set_option autoImplicit false

/-! ## Trees -/

mutual

theorem ofJson_toJson : (item : Item) → Item.ofJson item.toJson = .ok item
  | .string bytes => by rw [Item.toJson, Item.ofJson, Hex.decode_prefixed]
  | .list items => by
      rw [Item.toJson, Item.ofJson, ofJsonList_toJsonList items]
      rfl

theorem ofJsonList_toJsonList : (items : List Item) → ofJsonList (toJsonList items) = .ok items
  | [] => rfl
  | item :: rest => by
      rw [toJsonList, ofJsonList, ofJson_toJson item, ofJsonList_toJsonList rest]
      rfl

end

/-! ## Trees shown -/

/-- The answer that shows a tree, in both of its forms. -/
def shown (tree : Json) : CommandLine.Output :=
  { fields := [("item", tree)], lines := [tree.pretty] }

theorem decodeTree_of_decode {text : String} {bytes : Bytes} {item : Item}
    (given : Hex.decode text = .ok bytes) (read : decode bytes = .ok item) :
    CommandLine.decodeTree text false = .ok (shown item.toJson) := by
  simp only [CommandLine.decodeTree, CommandLine.readBytes, given, read, Except.mapError, bind,
    Except.bind]
  rfl

theorem decodeTree_of_decodeAll {text : String} {bytes : Bytes} {items : List Item}
    (given : Hex.decode text = .ok bytes) (read : decodeAll bytes = .ok items) :
    CommandLine.decodeTree text true = .ok (shown (Item.list items).toJson) := by
  simp only [CommandLine.decodeTree, CommandLine.readBytes, given, read, Except.mapError, bind,
    Except.bind]
  rfl

/-! ## Values written again -/

theorem decode_encode_of_decode {data : Bytes} {item : Item} (read : decode data = .ok item) :
    decode (encode item) = .ok item := by
  have fits : (encode item).length < Quantity.bound :=
    Nat.lt_of_le_of_lt (noLonger_of_decode read).length_le (length_lt_of_decode read)
  rw [decode_derived (derives_encode item fits) fits]
  exact if_pos (derives_of_decode read).2

/-- A written form that is read is written again as it was. -/
theorem encode_eq_iff_of_decode {data : Bytes} {item : Item} (read : decode data = .ok item) :
    encode item = data ↔ ∃ writer, encode writer = data := by
  constructor
  · intro same
    exact ⟨item, same⟩
  · rintro ⟨writer, rfl⟩
    have fits := length_lt_of_decode read
    rw [decode_derived (derives_encode writer fits) fits] at read
    split at read
    · cases read
      rfl
    · cases read

/-! ## There and back -/

/-- Nothing is lost in a tree: the value can be read off it.

The tree that is shown for given bytes is therefore written again as the canonical form of the
value that was read, which is the shortest one, and as the given bytes if these are written for any
value at all; the tree of several values in a row is read as the list of them.

The digits in a tree, with and without the mark, are read as the bytes that they were written for.
What is read at all is what spells bytes, and a text is refused exactly if, without the blanks around
it and one mark, it has an odd number of characters or one that is no digit. -/
theorem tree_lossless :
    (∀ item : Item, Item.ofJson item.toJson = .ok item) ∧
    (∀ (text : String) (bytes : Bytes), Hex.decode text = .ok bytes →
      (∀ item, decode bytes = .ok item →
        ∃ tree, CommandLine.decodeTree text false = .ok (shown tree) ∧
          (Item.ofJson tree).map encode = .ok (encode item) ∧
          decode (encode item) = .ok item ∧
          (∀ other, decode other = .ok item → (encode item).length ≤ other.length) ∧
          (encode item = bytes ↔ ∃ writer, encode writer = bytes)) ∧
      ∀ items, decodeAll bytes = .ok items →
        ∃ tree, CommandLine.decodeTree text true = .ok (shown tree) ∧
          Item.ofJson tree = .ok (.list items)) ∧
    (∀ bytes : Bytes,
      Hex.decode (Hex.encode bytes) = .ok bytes ∧
      Hex.decode (Hex.encodePrefixed bytes) = .ok bytes) ∧
    ∀ text : String,
      (∀ bytes, Hex.decode text = .ok bytes ↔ Hex.Spells text.toList bytes) ∧
      ((∃ cause, Hex.decode text = .error cause) ↔
        (Hex.stripRadix (Text.trim text.toList)).length % 2 = 1 ∨
          ∃ c ∈ Hex.stripRadix (Text.trim text.toList), c ∉ Hex.alphabet) := by
  refine ⟨ofJson_toJson, ?given, ?written, ?texts⟩
  case given =>
    intro text bytes given
    constructor
    · intro item read
      refine ⟨item.toJson, decodeTree_of_decode given read, ?_, decode_encode_of_decode read,
        fun other other_read => (noLonger_of_decode other_read).length_le,
        encode_eq_iff_of_decode read⟩
      rw [ofJson_toJson]
      rfl
    · intro items read
      exact ⟨_, decodeTree_of_decodeAll given read, ofJson_toJson (.list items)⟩
  case written =>
    intro bytes
    exact ⟨Hex.decode_plain bytes, Hex.decode_prefixed bytes⟩
  case texts =>
    intro text
    exact ⟨fun bytes => Hex.decode_eq_ok_iff, Hex.decode_refused_iff text⟩

/-- A list that holds a byte with a header that it does not need, an empty byte string and an empty
list, given in digits of both cases between blanks: its tree is written with one byte less. -/
theorem tree_lossless_roundabout :
    Hex.decode " 0Xc4810580C0\n" = .ok [0xc4, 0x81, 5, 0x80, 0xc0] ∧
    decode [0xc4, 0x81, 5, 0x80, 0xc0] = .ok (.list [.string [5], .string [], .list []]) ∧
    (∃ tree, CommandLine.decodeTree " 0Xc4810580C0\n" false = .ok (shown tree) ∧
      (Item.ofJson tree).map encode = .ok [0xc3, 5, 0x80, 0xc0]) ∧
    decodeAll [0xc4, 0x81, 5, 0x80, 0xc0] = .ok [.list [.string [5], .string [], .list []]] ∧
    ∃ tree, CommandLine.decodeTree " 0Xc4810580C0\n" true = .ok (shown tree) ∧
      Item.ofJson tree = .ok (.list [.list [.string [5], .string [], .list []]]) := by
  have given : Hex.decode " 0Xc4810580C0\n" = .ok [0xc4, 0x81, 5, 0x80, 0xc0] := by decide
  have read : decode [0xc4, 0x81, 5, 0x80, 0xc0] =
      .ok (.list [.string [5], .string [], .list []]) := rfl
  have all_read : decodeAll [0xc4, 0x81, 5, 0x80, 0xc0] =
      .ok [.list [.string [5], .string [], .list []]] := rfl
  obtain ⟨single, row⟩ := tree_lossless.2.1 _ _ given
  obtain ⟨tree, shows, again, _⟩ := single _ read
  exact ⟨given, read, ⟨tree, shows, again⟩, all_read, row _ all_read⟩

end EvmLedger.Rlp
