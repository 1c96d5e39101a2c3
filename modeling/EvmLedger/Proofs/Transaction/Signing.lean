/-
# EvmLedger.Proofs.Transaction.Signing -- what a signature covers

The byte string that is signed is a list of six values, or of nine when a chain is
named (`signedItems`).  As a list is read back from its written form, the string
tells the values, and the values tell the fields: no bytes for a creation and
twenty for a call, scalars without zeros in front, and the number of values for
whether a chain is named.  So nothing that is signed can be moved from one field to
its neighbour (`signingPreimage_inj`).

All of this holds of strings whose lengths are 64-bit quantities.  A named chain can
take more bytes than the signature in whose place it stands, and still the string is
never too long where the transaction can be written (`length_payload_lt`).
-/
import EvmLedger.Proofs.Rlp.Canonical
import EvmLedger.Proofs.Word.Bytes
import EvmLedger.Transaction
import Mathlib.Data.Set.Function

namespace EvmLedger

set_option autoImplicit false

open Crypto (keccak)

namespace Word

theorem ofNat_inj {n m : Nat} (n_lt : n < Quantity.bound) (m_lt : m < Quantity.bound)
    (same : ofNat n = ofNat m) : n = m := by
  have values := congrArg BitVec.toNat same
  rwa [toNat_ofNat_of_lt n_lt, toNat_ofNat_of_lt m_lt] at values

theorem length_toMinimalBytes_ofNat_le {n : Nat} (n_lt : n < Quantity.bound) :
    (ofNat n).toMinimalBytes.length ≤ 8 := by
  rw [length_toMinimalBytes_le_iff, toNat_ofNat_of_lt n_lt]
  exact n_lt

end Word

namespace Transaction

/-! ## The values that are signed -/

/-- Two transactions that do the same, whoever signed them. -/
structure Agrees (tx other : Transaction) : Prop where
  action : tx.action = other.action
  nonce : tx.nonce = other.nonce
  gasPrice : tx.gasPrice = other.gasPrice
  gasLimit : tx.gasLimit = other.gasLimit
  value : tx.value = other.value
  data : tx.data = other.data

/-- The values that name a chain. -/
def chainItems : Option Nat → List Rlp.Item
  | none => []
  | some id => [.ofNat id, .empty, .empty]

/-- All values that are signed. -/
def signedItems (tx : Transaction) (chain : Option Nat) : List Rlp.Item :=
  tx.payload ++ chainItems chain

variable {tx other : Transaction} {chain otherChain : Option Nat}

theorem signingPreimage_eq (tx : Transaction) (chain : Option Nat) :
    tx.signingPreimage chain = Rlp.encode (.list (tx.signedItems chain)) := by
  cases chain with
  | none => rw [signedItems, chainItems, List.append_nil]; rfl
  | some id => rfl

theorem payload_inj : tx.payload = other.payload ↔ Agrees tx other := by
  constructor
  · intro same
    simp only [payload, List.cons.injEq, Rlp.Item.ofWord_inj, Rlp.Item.string.injEq] at same
    obtain ⟨nonce, gasPrice, gasLimit, recipient, value, data, -⟩ := same
    refine ⟨?_, nonce, gasPrice, gasLimit, value, data⟩
    -- a creation has no recipient, and a recipient is not empty
    cases here : tx.action with
    | create =>
        cases there : other.action with
        | create => rfl
        | call account =>
            rw [here, there] at recipient
            exact absurd recipient.symm (Rlp.Item.ofAddress_ne_empty account)
    | call account =>
        cases there : other.action with
        | create =>
            rw [here, there] at recipient
            exact absurd recipient (Rlp.Item.ofAddress_ne_empty account)
        | call otherAccount =>
            rw [here, there] at recipient
            rw [Rlp.Item.ofAddress_inj.1 recipient]
  · intro agrees
    simp only [payload, agrees.action, agrees.nonce, agrees.gasPrice, agrees.gasLimit,
      agrees.value, agrees.data]

theorem chainItems_inj (chain_lt : ∀ id ∈ chain, id < Quantity.bound)
    (otherChain_lt : ∀ id ∈ otherChain, id < Quantity.bound) :
    chainItems chain = chainItems otherChain ↔ chain = otherChain := by
  constructor
  · intro same
    cases chain with
    | none =>
        cases otherChain with
        | none => rfl
        | some id => cases same
    | some id =>
        cases otherChain with
        | none => cases same
        | some otherId =>
            simp only [chainItems, List.cons.injEq, Rlp.Item.ofNat, Rlp.Item.ofWord_inj] at same
            rw [Word.ofNat_inj (chain_lt id rfl) (otherChain_lt otherId rfl) same.1]
  · intro same
    rw [same]

theorem signedItems_inj (chain_lt : ∀ id ∈ chain, id < Quantity.bound)
    (otherChain_lt : ∀ id ∈ otherChain, id < Quantity.bound) :
    tx.signedItems chain = other.signedItems otherChain ↔ Agrees tx other ∧ chain = otherChain := by
  have six : tx.payload.length = other.payload.length := rfl
  constructor
  · intro same
    obtain ⟨payloads, chains⟩ := List.append_inj same six
    exact ⟨payload_inj.1 payloads, (chainItems_inj chain_lt otherChain_lt).1 chains⟩
  · rintro ⟨agrees, rfl⟩
    rw [signedItems, signedItems, payload_inj.2 agrees]

/-! ## Their written form -/

theorem length_chainItems_le (chain_lt : ∀ id ∈ chain, id < Quantity.bound) :
    (Rlp.encodeAll (chainItems chain)).length ≤ 11 := by
  cases chain with
  | none => exact Nat.zero_le 11
  | some id =>
      have short := Word.length_toMinimalBytes_ofNat_le (chain_lt id rfl)
      have written := Rlp.length_encodeBytes_le_of_short (Nat.le_trans short (by decide))
      have empties : (Rlp.encodeAll [.empty, .empty]).length = 2 := rfl
      rw [chainItems, Rlp.encodeAll, List.length_append, empties]
      simp only [Rlp.Item.ofNat, Rlp.Item.ofWord, Rlp.encode]
      omega

/-- Where a transaction can be written, there is room behind its payload for the name of a chain.
The signature alone does not leave as much: behind a payload of that size it is the header, which
takes nine bytes. -/
theorem length_payload_lt (fits : tx.encode.length < Quantity.bound) :
    (Rlp.encodeAll tx.payload).length + 11 < Quantity.bound := by
  set signature : List Rlp.Item :=
    [.ofWord tx.signature.v, .string tx.signature.r, .string tx.signature.s] with signature_def
  have written : tx.encode = Rlp.encode (.list (tx.payload ++ signature)) := rfl
  have whole := Rlp.length_encodeAll_append tx.payload signature
  have signature_length : 3 ≤ (Rlp.encodeAll signature).length := by
    have v := Rlp.length_encode_pos (.ofWord tx.signature.v)
    have r := Rlp.length_encode_pos (.string tx.signature.r)
    have s := Rlp.length_encode_pos (.string tx.signature.s)
    simp only [signature_def, Rlp.encodeAll, List.length_append]
    omega
  have payload_fits : (Rlp.encodeAll (tx.payload ++ signature)).length < Quantity.bound := by
    rw [written, Rlp.encode, List.length_append] at fits
    omega
  rw [written, Rlp.encode_list payload_fits, List.length_append] at fits
  rcases Nat.lt_or_ge (Rlp.encodeAll (tx.payload ++ signature)).length (256 ^ 7) with small | large
  · simp only [Quantity.bound]
    omega
  · have digits : ¬(Bytes.ofNat 8 (Rlp.encodeAll (tx.payload ++ signature)).length).dropZeros.length
        ≤ 7 := by
      rw [Rlp.lengthBytes_le_iff payload_fits]
      exact Nat.not_lt.2 large
    have long : Rlp.shortLimit < (Rlp.encodeAll (tx.payload ++ signature)).length :=
      Nat.lt_of_lt_of_le (by decide) large
    rw [Rlp.header_long long, List.length_cons] at fits
    omega

theorem length_signedItems_lt (fits : tx.encode.length < Quantity.bound)
    (chain_lt : ∀ id ∈ chain, id < Quantity.bound) :
    (Rlp.encodeAll (tx.signedItems chain)).length < Quantity.bound := by
  have payload := length_payload_lt fits
  have named := length_chainItems_le chain_lt
  rw [signedItems, Rlp.length_encodeAll_append]
  omega

theorem deepest_signedItems (tx : Transaction) (chain : Option Nat) :
    Rlp.deepest (tx.signedItems chain) = 0 := by
  cases action : tx.action <;> cases chain <;>
    simp [signedItems, chainItems, payload, action, Rlp.deepest, Rlp.Item.depth, Rlp.Item.ofNat,
      Rlp.Item.ofWord, Rlp.Item.ofAddress, Rlp.Item.empty]

/-- What is signed tells all that the transaction does, and the chain. -/
theorem signingPreimage_inj (fits : tx.encode.length < Quantity.bound)
    (other_fits : other.encode.length < Quantity.bound)
    (chain_lt : ∀ id ∈ chain, id < Quantity.bound)
    (otherChain_lt : ∀ id ∈ otherChain, id < Quantity.bound) :
    tx.signingPreimage chain = other.signingPreimage otherChain ↔
      Agrees tx other ∧ chain = otherChain := by
  rw [← signedItems_inj chain_lt otherChain_lt, signingPreimage_eq, signingPreimage_eq]
  constructor
  · apply Rlp.encode_list_inj (length_signedItems_lt fits chain_lt)
      (length_signedItems_lt other_fits otherChain_lt)
    · rw [deepest_signedItems]
      exact Nat.zero_le _
    · rw [deepest_signedItems]
      exact Nat.zero_le _
  · intro same
    rw [same]

/-- The chain in a recovery value is a 64-bit quantity. -/
theorem chainId_lt (wire : WireSignature) : ∀ id ∈ wire.chainId, id < Quantity.bound := by
  intro id named
  simp only [WireSignature.chainId, Option.mem_def, Option.bind_eq_bind,
    Option.bind_eq_some_iff] at named
  obtain ⟨v, narrow, named⟩ := named
  obtain ⟨_, v_lt⟩ := Word.narrow?_eq_some.1 narrow
  split at named
  · cases named
    omega
  · cases named

/-- The string that is signed tells the six fields of the payload and the chain, or that none is
named.  So where the digest does not collide on what was signed, two transactions have one digest to
sign only when they do the same and name the same chain.  A string that names no chain is never one
that does. -/
theorem signingHash_covers :
    (∀ (tx other : Transaction) (chain otherChain : Option Nat),
      tx.encode.length < Quantity.bound → other.encode.length < Quantity.bound →
      (∀ id ∈ chain, id < Quantity.bound) → (∀ id ∈ otherChain, id < Quantity.bound) →
      (tx.signingPreimage chain = other.signingPreimage otherChain ↔
        Agrees tx other ∧ chain = otherChain)) ∧
    (∀ (signed : Set Bytes) (tx other : Transaction), signed.InjOn keccak →
      tx.encode.length < Quantity.bound → other.encode.length < Quantity.bound →
      tx.signingPreimage tx.signature.chainId ∈ signed →
      other.signingPreimage other.signature.chainId ∈ signed →
      (tx.signingHash = other.signingHash ↔
        Agrees tx other ∧ tx.signature.chainId = other.signature.chainId)) ∧
    ∀ (tx other : Transaction) (id : Nat),
      tx.encode.length < Quantity.bound → other.encode.length < Quantity.bound →
      id < Quantity.bound → tx.signingPreimage none ≠ other.signingPreimage (some id) := by
  refine ⟨fun tx other chain otherChain fits other_fits chain_lt otherChain_lt =>
    signingPreimage_inj fits other_fits chain_lt otherChain_lt, ?_, ?_⟩
  · intro signed tx other collision_free fits other_fits tx_signed other_signed
    rw [← signingPreimage_inj fits other_fits (chainId_lt _) (chainId_lt _)]
    exact collision_free.eq_iff tx_signed other_signed
  · intro tx other id fits other_fits id_lt same
    have unnamed_lt : ∀ named ∈ (none : Option Nat), named < Quantity.bound := by
      intro named member
      cases member
    have named_lt : ∀ named ∈ some id, named < Quantity.bound := by
      intro named member
      cases member
      exact id_lt
    have agree := (signingPreimage_inj fits other_fits unnamed_lt named_lt).1 same
    exact absurd agree.2 (Option.some_ne_none id).symm

/-- A creation that is signed for chain 1. -/
def deployment : Transaction where
  action := .create
  nonce := 0
  gasPrice := 1
  gasLimit := 53000
  value := 0
  data := [0x60, 0]
  signature := ⟨37, [1], [2]⟩

/-- The same creation with another signature for chain 1. -/
def resigned : Transaction := { deployment with signature := ⟨38, [3, 4], [5]⟩ }

/-- One digest is signed twice, by signatures of either parity, and the fields agree; without a name
for the chain, or with the chain in the data, it would be another string. -/
theorem signingHash_covers_resigned :
    deployment.signingPreimage (some 1) = [0xcd, 0x80, 1, 0x82, 0xcf, 0x08, 0x80, 0x80, 0x82, 0x60, 0,
        1, 0x80, 0x80] ∧
      deployment.signingHash = resigned.signingHash ∧ Agrees deployment resigned ∧
      deployment.signature.chainId = resigned.signature.chainId ∧
      deployment.signingPreimage none ≠ resigned.signingPreimage (some 1) := by
  have fits : deployment.encode.length < Quantity.bound := by decide +kernel
  have resigned_fits : resigned.encode.length < Quantity.bound := by decide +kernel
  have chain : resigned.signature.chainId = deployment.signature.chainId := by decide +kernel
  have same : deployment.signingPreimage deployment.signature.chainId =
      resigned.signingPreimage resigned.signature.chainId := by rw [chain]; rfl
  have digests : deployment.signingHash = resigned.signingHash := congrArg keccak same
  have covered := (signingHash_covers.2.1 {deployment.signingPreimage deployment.signature.chainId}
    deployment resigned (Set.injOn_singleton _ _) fits resigned_fits rfl same.symm).1 digests
  exact ⟨by decide +kernel, digests, covered.1, covered.2,
    signingHash_covers.2.2 deployment resigned 1 fits resigned_fits (by decide)⟩

end Transaction

end EvmLedger
