/-
# EvmLedger.Proofs.Rlp.Grammar -- which byte strings are read as which values

The grammar of the wire format, apart from any reader (`Derives`).  A byte below
`0x80` stands for itself.  Everything else is a payload after bytes that announce
its length (`Announces`): a single byte, or a byte telling how many length bytes
follow.  The length bytes may start with zeros, and a length that fits in the first
byte may have bytes of its own.  The payload of a list is what its values are read
from, one after the other, with nothing left over.

How deep lists may nest is not part of the grammar; `Item.depth` counts it.
-/
import EvmLedger.Rlp.Item
import EvmLedger.Proofs.Bytes

namespace EvmLedger.Rlp

set_option autoImplicit false

/-! ## The grammar -/

/-- Bytes that announce a payload of some length.  `base` tells byte strings from lists. -/
inductive Announces (base : Nat) : Bytes → Nat → Prop where
  | short {first : UInt8} {length : Nat} (limited : length ≤ 55)
      (told : first.toNat = base + length) : Announces base [first] length
  | long {first : UInt8} {digits : Bytes} (present : 1 ≤ digits.length) (limited : digits.length ≤ 8)
      (told : first.toNat = base + 55 + digits.length) :
      Announces base (first :: digits) digits.toNat

/-- A value and the bytes it may be read from. -/
inductive Derives : Item → Bytes → Prop where
  | byte {byte : UInt8} (small : byte.toNat < 0x80) : Derives (.string [byte]) [byte]
  | string {head payload : Bytes} (announced : Announces 0x80 head payload.length) :
      Derives (.string payload) (head ++ payload)
  /-- `parts` are the values of the list, each with its own bytes -/
  | list {head : Bytes} {parts : List (Item × Bytes)}
      (each : ∀ part ∈ parts, Derives part.1 part.2)
      (announced : Announces 0xc0 head (parts.flatMap Prod.snd).length) :
      Derives (.list (parts.map Prod.fst)) (head ++ parts.flatMap Prod.snd)

/-- The values of a list, each with the bytes that a writer gives it. -/
theorem Derives.list_map {items : List Item} {write : Item → Bytes} {head : Bytes}
    (each : ∀ item ∈ items, Derives item (write item))
    (announced : Announces 0xc0 head (items.flatMap write).length) :
    Derives (.list items) (head ++ items.flatMap write) := by
  have derived := @Derives.list head (items.map fun item => (item, write item))
  simp only [List.forall_mem_map, List.flatMap_map, List.map_map, Function.comp_def,
    List.map_id'] at derived
  exact derived each announced

mutual

/-- How deep lists are nested in a value. -/
def Item.depth : Item → Nat
  | .string _ => 0
  | .list items => deepest items + 1

/-- How deep lists are nested in any of several values. -/
def deepest : List Item → Nat
  | [] => 0
  | item :: rest => max item.depth (deepest rest)

end

theorem deepest_le_iff {items : List Item} {depth : Nat} :
    deepest items ≤ depth ↔ ∀ item ∈ items, item.depth ≤ depth := by
  induction items with
  | nil => exact ⟨fun _ => nofun, fun _ => Nat.zero_le depth⟩
  | cons item rest ih => rw [deepest, Nat.max_le, ih, List.forall_mem_cons]

theorem Announces.pos {base length : Nat} {head : Bytes} (announced : Announces base head length) :
    1 ≤ head.length := by
  cases announced with
  | short => exact Nat.le_refl 1
  | long => exact Nat.le_add_left 1 _

/-- A length that can be announced is a 64-bit quantity. -/
theorem Announces.lt_bound {base length : Nat} {head : Bytes}
    (announced : Announces base head length) : length < Quantity.bound := by
  cases announced with
  | short limited told => exact Nat.lt_of_le_of_lt limited (by decide)
  | long present limited told =>
      exact Nat.lt_of_lt_of_le (Bytes.toNat_lt _) (Nat.pow_le_pow_right (by decide) limited)

theorem Announces.first {base length : Nat} {head : Bytes}
    (announced : Announces base head length) :
    ∃ first digits, head = first :: digits ∧ base ≤ first.toNat ∧ first.toNat ≤ base + 63 := by
  cases announced with
  | short limited told => exact ⟨_, _, rfl, by omega, by omega⟩
  | long present limited told => exact ⟨_, _, rfl, by omega, by omega⟩

/-- Where two payloads are announced in one byte string, it is by the same bytes. -/
theorem Announces.head_eq {base length length' : Nat} {head head' rest rest' : Bytes}
    (announced : Announces base head length) (announced' : Announces base head' length')
    (same : head ++ rest = head' ++ rest') : head = head' := by
  cases announced with
  | @short first _ limited told =>
      cases announced' with
      | @short first' =>
          simp only [List.cons_append, List.cons.injEq] at same
          rw [same.1]
      | @long first' digits' present' _ told' =>
          simp only [List.cons_append, List.cons.injEq] at same
          rw [same.1] at told
          omega
  | @long first digits present limited told =>
      cases announced' with
      | @short first' _ limited' told' =>
          simp only [List.cons_append, List.cons.injEq] at same
          rw [same.1] at told
          omega
      | @long first' digits' _ _ told' =>
          simp only [List.cons_append, List.cons.injEq] at same
          have length_eq : digits.length = digits'.length := by
            rw [same.1] at told
            omega
          rw [same.1, List.append_inj_left same.2 length_eq]

theorem Derives.nonempty {item : Item} {bytes : Bytes} (derived : Derives item bytes) :
    bytes ≠ [] := by
  have front : ∀ {base length : Nat} {head payload : Bytes}, Announces base head length →
      head ++ payload ≠ [] := by
    intro base length head payload announced empty
    have pos := announced.pos
    rw [(List.append_eq_nil_iff.1 empty).1] at pos
    exact absurd pos (by decide)
  cases derived with
  | byte => exact List.cons_ne_nil _ _
  | string announced => exact front announced
  | list each announced => exact front announced

theorem length_le_of_mem_parts {parts : List (Item × Bytes)} {part : Item × Bytes}
    (among : part ∈ parts) : part.2.length ≤ (parts.flatMap Prod.snd).length := by
  rw [List.flatMap_def]
  exact (List.sublist_flatten_of_mem (List.mem_map_of_mem among)).length_le

end EvmLedger.Rlp
