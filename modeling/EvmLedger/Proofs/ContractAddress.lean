/-
# EvmLedger.Proofs.ContractAddress -- derivations that do not meet

Addresses of new contracts, identifiers of linked accounts and keys of slots are
digests.  Where a digest does not collide on the byte strings in play, two of them
are the same only if they were made from the same byte string; so what has to be
known is that a byte string tells what it was made of, and in which way.

Two ways make lists on the wire, and a list tells its values: an address and a
number of at most eight bytes in one of them, a name and an address, which takes
twenty bytes, in the other (`legacyPreimage_ne_identifierPreimage`).  The third way
begins with a byte that begins a list only if its values take `2 ^ 56` bytes or
more (`head?_header_ne`), and makes strings of 85 bytes.
-/
import EvmLedger.ContractAddress
import EvmLedger.Proofs.Rlp.RoundTrip
import EvmLedger.Proofs.Word.Bytes
import EvmLedger.Vm.Effects
import Mathlib.Data.Set.Function

namespace EvmLedger

set_option autoImplicit false

open Crypto (keccak)

namespace Rlp

theorem length_encode_string_le (bytes : Bytes) (fits : bytes.length < Quantity.bound) :
    (encode (.string bytes)).length ≤ 9 + bytes.length := by
  rw [encode]
  rcases encodeBytes_cases bytes with ⟨byte, rfl, small⟩ | headed
  · rw [encodeBytes_single small]
    exact Nat.le_add_left _ _
  · rw [encodeBytes_headed headed, List.length_append]
    exact Nat.add_le_add_right (header_length_le _ fits) _

theorem length_encodeAll_pair_le {bytes bytes' : Bytes}
    (fits : bytes.length + bytes'.length + 18 < Quantity.bound) :
    (encodeAll [.string bytes, .string bytes']).length ≤ bytes.length + bytes'.length + 18 := by
  have first := length_encode_string_le bytes (by omega)
  have second := length_encode_string_le bytes' (by omega)
  rw [encodeAll, encodeAll, encodeAll, List.append_nil, List.length_append]
  omega

/-- A list of two byte strings tells both of them. -/
theorem encodeList_pair_inj {bytes bytes' other other' : Bytes}
    (fits : bytes.length + bytes'.length + 18 < Quantity.bound)
    (others_fit : other.length + other'.length + 18 < Quantity.bound)
    (same : encodeList [.string bytes, .string bytes'] =
      encodeList [.string other, .string other']) :
    bytes = other ∧ bytes' = other' := by
  have items := encode_list_inj (Nat.lt_of_le_of_lt (length_encodeAll_pair_le fits) fits)
    (Nat.lt_of_le_of_lt (length_encodeAll_pair_le others_fit) others_fit) (Nat.zero_le _)
    (Nat.zero_le _) same
  simpa using items

/-- The greatest byte begins a list only where the length of the list takes eight bytes. -/
theorem head?_header_ne {length : Nat} (small : length < 2 ^ 56) :
    (header listBase length).head? ≠ some 0xff := by
  rcases Nat.lt_or_ge shortLimit length with long | short
  · have few : (Bytes.ofNat 8 length).dropZeros.length ≤ 7 := by
      rw [lengthBytes_le_iff (Nat.lt_trans small (by decide))]
      exact small
    have told : (listBase + 55 + UInt8.ofNat (Bytes.ofNat 8 length).dropZeros.length).toNat =
        247 + (Bytes.ofNat 8 length).dropZeros.length :=
      toNat_add_ofNat (by simp [listBase]; omega)
    rw [header_long long, List.head?_cons, Ne, Option.some.injEq]
    intro same
    rw [same] at told
    exact absurd told (by simp; omega)
  · have told : (listBase + UInt8.ofNat length).toNat = 192 + length :=
      toNat_add_ofNat (by simp [listBase, shortLimit] at short ⊢; omega)
    rw [header_short short, List.head?_cons, Ne, Option.some.injEq]
    intro same
    rw [same] at told
    exact absurd told (by simp [shortLimit] at short ⊢; omega)

/-- A list of two byte strings that begins with the greatest byte is long. -/
theorem length_encodeList_pair {bytes bytes' rest : Bytes}
    (fits : bytes.length + bytes'.length + 18 < Quantity.bound)
    (begins : encodeList [.string bytes, .string bytes'] = 0xff :: rest) :
    2 ^ 56 ≤ rest.length := by
  have payload := payloadLength_eq _ (Nat.lt_of_le_of_lt (length_encodeAll_pair_le fits) fits)
  unfold encodeList at begins
  rw [payload] at begins
  have nonempty := header_length_pos listBase (encodeAll [.string bytes, .string bytes']).length
  have total := congrArg List.length begins
  rw [List.length_append, List.length_cons] at total
  by_contra short
  have small : (encodeAll [.string bytes, .string bytes']).length < 2 ^ 56 := by omega
  refine head?_header_ne small ?_
  obtain ⟨first, others, leads⟩ := List.exists_cons_of_length_pos nonempty
  rw [leads, List.cons_append] at begins
  rw [leads, (List.cons.inj begins).1, List.head?_cons]

end Rlp

namespace ContractAddress

section Preimages

variable {sender sender' address address' : Address} {salt salt' : Word} {codeHash codeHash' : Hash}
  {nonce nonce' : Word} {name name' : String}

theorem length_legacy_lt (sender : Address) (nonce : Word) :
    sender.toBytes.length + nonce.toMinimalBytes.length + 18 < Quantity.bound := by
  have few := Word.length_toMinimalBytes_le nonce
  have enough : 70 < Quantity.bound := by decide
  rw [Address.length_toBytes]
  omega

theorem length_identifier_lt (short : name.utf8ByteSize < 2 ^ 56) (address : Address) :
    name.toUTF8.toList.length + address.toBytes.length + 18 < Quantity.bound := by
  have enough : 2 ^ 56 + 38 < Quantity.bound := by decide
  rw [Bytes.length_toUTF8, Address.length_toBytes]
  omega

theorem legacyPreimage_inj
    (same : legacyPreimage sender nonce = legacyPreimage sender' nonce') :
    sender = sender' ∧ nonce = nonce' := by
  obtain ⟨senders, nonces⟩ :=
    Rlp.encodeList_pair_inj (length_legacy_lt _ _) (length_legacy_lt _ _) same
  exact ⟨Address.toBytes_injective senders, Word.toMinimalBytes_injective nonces⟩

theorem identifierPreimage_inj (short : name.utf8ByteSize < 2 ^ 56)
    (short' : name'.utf8ByteSize < 2 ^ 56)
    (same : identifierPreimage name address = identifierPreimage name' address') :
    name = name' ∧ address = address' := by
  obtain ⟨names, addresses⟩ := Rlp.encodeList_pair_inj (length_identifier_lt short _)
    (length_identifier_lt short' _) same
  exact ⟨Bytes.toUTF8_injective names, Address.toBytes_injective addresses⟩

theorem saltedPreimage_inj
    (same : saltedPreimage sender salt codeHash = saltedPreimage sender' salt' codeHash') :
    sender = sender' ∧ salt = salt' ∧ codeHash = codeHash' := by
  have rest := List.tail_eq_of_cons_eq same
  obtain ⟨front, hashes⟩ := List.append_inj' rest (by simp [Hash.toBytes, Word.toBytes])
  obtain ⟨senders, salts⟩ := List.append_inj' front (by simp [Word.toBytes])
  exact ⟨Address.toBytes_injective senders, Word.toBytes_injective salts,
    Hash.toBytes_injective hashes⟩

/-- Where the one has a number of at most eight bytes, the other has an address. -/
theorem legacyPreimage_ne_identifierPreimage (narrow : nonce.toNat < Quantity.bound)
    (short : name.utf8ByteSize < 2 ^ 56) :
    legacyPreimage sender nonce ≠ identifierPreimage name address := by
  intro same
  obtain ⟨-, numbers⟩ := Rlp.encodeList_pair_inj (length_legacy_lt _ _)
    (length_identifier_lt short _) same
  have few : nonce.toMinimalBytes.length ≤ 8 := (Word.length_toMinimalBytes_le_iff nonce 8).2 narrow
  rw [numbers, Address.length_toBytes] at few
  exact absurd few (by decide)

/-- A short string that begins with the greatest byte is no list. -/
theorem saltedPreimage_ne_encodeList {bytes bytes' : Bytes}
    (fits : bytes.length + bytes'.length + 18 < Quantity.bound) :
    saltedPreimage sender salt codeHash ≠ Rlp.encodeList [.string bytes, .string bytes'] := by
  intro same
  have long := Rlp.length_encodeList_pair fits same.symm
  simp [Hash.toBytes, Word.toBytes] at long

end Preimages

end ContractAddress

/-! ## All derivations together -/

/-- A way to derive an address, with all that goes into it.  Initialisation code is the code
itself, or else its digest. -/
inductive Derivation (Code : Type) where
  | legacy (sender : Address) (nonce : Word)
  | salted (sender : Address) (salt : Word) (code : Code)
  | identifier (name : String) (address : Address)
  deriving DecidableEq

namespace Derivation

open ContractAddress

/-- Nonces are 64-bit quantities, and names take less than `2 ^ 56` bytes. -/
def InRange {Code : Type} : Derivation Code → Prop
  | .legacy _ nonce => nonce.toNat < Quantity.bound
  | .salted .. => True
  | .identifier name _ => name.utf8ByteSize < 2 ^ 56

instance {Code : Type} : DecidablePred (@InRange Code)
  | .legacy _ nonce => inferInstanceAs (Decidable (nonce.toNat < Quantity.bound))
  | .salted .. => inferInstanceAs (Decidable True)
  | .identifier name _ => inferInstanceAs (Decidable (name.utf8ByteSize < 2 ^ 56))

/-- The byte string that is hashed. -/
def preimage : Derivation Hash → Bytes
  | .legacy sender nonce => legacyPreimage sender nonce
  | .salted sender salt codeHash => saltedPreimage sender salt codeHash
  | .identifier name address => identifierPreimage name address

/-- The address that is derived. -/
def address : Derivation Bytes → Address
  | .legacy sender nonce => ContractAddress.legacy sender nonce
  | .salted sender salt initCode => ContractAddress.salted sender salt initCode
  | .identifier name address => ContractAddress.identifier name address

/-- Initialisation code goes into a derivation by its digest. -/
def digested : Derivation Bytes → Derivation Hash
  | .legacy sender nonce => .legacy sender nonce
  | .salted sender salt initCode => .salted sender salt (keccak initCode)
  | .identifier name address => .identifier name address

/-- The initialisation code that goes into some derivations. -/
def initCodes (ds : Set (Derivation Bytes)) : Set Bytes :=
  {code | ∃ sender salt, .salted sender salt code ∈ ds}

theorem address_eq (d : Derivation Bytes) :
    d.address = ofPreimage d.digested.preimage := by
  cases d <;> rfl

theorem inRange_digested {d : Derivation Bytes} : d.digested.InRange ↔ d.InRange := by
  cases d <;> rfl

/-- What is hashed tells what it was made of. -/
theorem preimage_inj {d d' : Derivation Hash} (in_range : d.InRange) (in_range' : d'.InRange)
    (same : d.preimage = d'.preimage) : d = d' := by
  cases d with
  | legacy sender nonce =>
      cases d' with
      | legacy sender' nonce' =>
          obtain ⟨rfl, rfl⟩ := legacyPreimage_inj same
          rfl
      | salted =>
          exact absurd same.symm (saltedPreimage_ne_encodeList (length_legacy_lt _ _))
      | identifier =>
          exact absurd same (legacyPreimage_ne_identifierPreimage in_range in_range')
  | salted sender salt codeHash =>
      cases d' with
      | legacy =>
          exact absurd same (saltedPreimage_ne_encodeList (length_legacy_lt _ _))
      | salted sender' salt' codeHash' =>
          obtain ⟨rfl, rfl, rfl⟩ := saltedPreimage_inj same
          rfl
      | identifier =>
          exact absurd same (saltedPreimage_ne_encodeList (length_identifier_lt in_range' _))
  | identifier name address =>
      cases d' with
      | legacy =>
          exact absurd same.symm (legacyPreimage_ne_identifierPreimage in_range' in_range)
      | salted =>
          exact absurd same.symm (saltedPreimage_ne_encodeList (length_identifier_lt in_range _))
      | identifier name' address' =>
          obtain ⟨rfl, rfl⟩ := identifierPreimage_inj in_range in_range' same
          rfl

/-- The digest of initialisation code stands for the code, where no two pieces of code have the
same digest. -/
theorem digested_injOn {ds : Set (Derivation Bytes)} (apart : (initCodes ds).InjOn keccak) :
    ds.InjOn digested := by
  intro d among d' among' same
  cases d with
  | salted sender salt initCode =>
      cases d' with
      | salted sender' salt' initCode' =>
          injection same with senders salts hashes
          obtain rfl := senders
          obtain rfl := salts
          rw [apart ⟨_, _, among⟩ ⟨_, _, among'⟩ hashes]
      | legacy | identifier => cases same
  | legacy | identifier =>
      cases d' with
      | salted => cases same
      | legacy | identifier => cases same <;> rfl

end Derivation

/-! ## Slots -/

/-- What is hashed for the key under which a slot is kept. -/
def Vm.Slot.preimage (slot : Vm.Slot) : Bytes :=
  slot.contract.toWord.toBytes ++ slot.key.toBytes

/-- The key under which a slot is kept. -/
def Vm.Slot.storageKey (slot : Vm.Slot) : Hash :=
  Crypto.storageKey slot.contract slot.key

theorem Vm.Slot.preimage_injective : Function.Injective Vm.Slot.preimage := by
  rintro ⟨contract, key⟩ ⟨contract', key'⟩ same
  obtain ⟨contracts, keys⟩ := List.append_inj' same (by simp [Word.toBytes])
  obtain rfl := Address.toWord_injective (Word.toBytes_injective contracts)
  obtain rfl := Word.toBytes_injective keys
  rfl

/-- Derivations with different inputs, or in different ways, do not meet.  What is hashed for an
address tells the way and the inputs, also where a name looks like the bytes of an address, or is
so long that its list begins like a salted derivation; what is hashed for a slot takes 64 bytes and
tells the slot.  So the addresses are different as long as no two of the byte strings hashed for
them agree in the low twenty bytes of their digests, and no two pieces of initialisation code in
their digests; and slots have different keys as long as what was hashed for them has different
digests. -/
theorem derivations_apart :
    (∀ d d' : Derivation Hash, d.InRange → d'.InRange → d.preimage = d'.preimage → d = d') ∧
    (∀ slot : Vm.Slot, slot.preimage.length = 64) ∧
    Function.Injective Vm.Slot.preimage ∧
    (∀ ds : Set (Derivation Bytes), (∀ d ∈ ds, d.InRange) →
      (Derivation.initCodes ds).InjOn keccak →
      ((fun d => d.digested.preimage) '' ds).InjOn ContractAddress.ofPreimage →
      ds.InjOn Derivation.address) ∧
    ∀ slots : Set Vm.Slot, (Vm.Slot.preimage '' slots).InjOn keccak →
      slots.InjOn Vm.Slot.storageKey := by
  refine ⟨fun d d' => Derivation.preimage_inj, fun slot => ?_, Vm.Slot.preimage_injective,
    fun ds in_range codes_apart apart d among d' among' same => ?_, fun slots apart => ?_⟩
  · simp [Vm.Slot.preimage, Word.toBytes]
  · rw [Derivation.address_eq, Derivation.address_eq] at same
    have strings := apart ⟨d, among, rfl⟩ ⟨d', among', rfl⟩ same
    have digests := Derivation.preimage_inj
      (Derivation.inRange_digested.2 (in_range d among))
      (Derivation.inRange_digested.2 (in_range d' among')) strings
    exact Derivation.digested_injOn codes_apart among among' digests
  · intro slot among slot' among' same
    exact Vm.Slot.preimage_injective (apart ⟨slot, among, rfl⟩ ⟨slot', among', rfl⟩ same)

/-- A name of twenty bytes. -/
def longName : String := "aaaaaaaaaaaaaaaaaaaa"

/-- The address that is written like this name. -/
def longNamed : Address := Address.ofLowBytes longName.toUTF8.toList

/-- An account that is linked under this name, and two contracts that are created by the address. -/
def lookalikes : List (Derivation Bytes) :=
  [.identifier longName ⟨1⟩, .legacy longNamed 1, .salted longNamed 1 [0x00]]

/-- The three have different addresses, and two slots have different keys of which each has the
number of the other's contract. -/
theorem derivations_apart_lookalikes :
    {d | d ∈ lookalikes}.InjOn Derivation.address ∧
      {slot | slot ∈ [Vm.Slot.mk ⟨1⟩ 2, ⟨⟨2⟩, 1⟩]}.InjOn Vm.Slot.storageKey ∧
      ContractAddress.legacyPreimage longNamed 1 ≠
        ContractAddress.identifierPreimage longName ⟨1⟩ := by
  obtain ⟨strings, -, -, addresses, keys⟩ := derivations_apart
  have in_range : ∀ d ∈ lookalikes, d.InRange := by decide +kernel
  have one_code : ∀ code ∈ Derivation.initCodes {d | d ∈ lookalikes}, code = [0x00] := by
    rintro code ⟨sender, salt, among⟩
    simp only [lookalikes, Set.mem_ofPred_eq, List.mem_cons, reduceCtorEq, false_or,
      Derivation.salted.injEq, List.not_mem_nil, or_false] at among
    exact among.2.2
  have hashed : ∀ d ∈ lookalikes, ∀ d' ∈ lookalikes,
      ContractAddress.ofPreimage d.digested.preimage =
        ContractAddress.ofPreimage d'.digested.preimage →
      d.digested.preimage = d'.digested.preimage := by
    decide +kernel
  have slots_hashed : ∀ slot ∈ [Vm.Slot.mk ⟨1⟩ 2, ⟨⟨2⟩, 1⟩],
      ∀ slot' ∈ [Vm.Slot.mk ⟨1⟩ 2, ⟨⟨2⟩, 1⟩],
      keccak slot.preimage = keccak slot'.preimage → slot.preimage = slot'.preimage := by
    decide +kernel
  refine ⟨addresses _ in_range ?_ ?_, keys _ ?_, fun same => ?_⟩
  · intro code among code' among' _
    rw [one_code code among, one_code code' among']
  · rintro _ ⟨d, among, rfl⟩ _ ⟨d', among', rfl⟩ same
    exact hashed d among d' among' same
  · rintro _ ⟨slot, among, rfl⟩ _ ⟨slot', among', rfl⟩ same
    exact slots_hashed slot among slot' among' same
  · have one := strings (.legacy longNamed 1) (.identifier longName ⟨1⟩) (by decide)
      (by decide +kernel) same
    cases one

end EvmLedger
