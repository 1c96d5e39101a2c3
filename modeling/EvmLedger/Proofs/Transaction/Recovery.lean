/-
# EvmLedger.Proofs.Transaction.Recovery -- from the key to the sender

A signature is made of a hash, two scalars and a parity.  On the wire the scalars
lose their zeros in front, and the parity shares one number with the name of the
chain; and what was signed is not on the wire at all, but is made again from the
fields and the chain that this number names.  So the sender is found when three
things survive: the scalars (`toSignature_ofSignature`), the chain
(`chainId_ofSignature`) and the fields (`Agrees`), from which the chain makes the hash.

That a signature leads back to its key is a law of the curve, which is assumed here of
the hash at hand (`Crypto.Recoverable`).  Everything else is shown, from the key to
the byte string that is sent and back to the address.
-/
import EvmLedger.Proofs.Transaction.Signing
import EvmLedger.Proofs.Transaction.Wire

namespace EvmLedger

set_option autoImplicit false

open Crypto (PrivateKey Signature)

/-- The key signs the hash, the signature tells the key by its parity alone, and it leads to
the address of the key. -/
structure Crypto.Recoverable (key : PrivateKey) (hash : Hash) (signature : Signature) : Prop where
  made : Crypto.sign hash key = .ok signature
  parity : signature.recoveryId ≤ 1
  recovers : Crypto.recoverSigner hash signature = .ok key.publicKey.toAddress

/-- A signature that leads to an address has two scalars, and zero is none. -/
theorem Crypto.nonzero_of_recoverSigner {hash : Hash} {signature : Signature} {account : Address}
    (recovers : recoverSigner hash signature = .ok account) :
    0 < signature.r.bits.toNat ∧ 0 < signature.s.bits.toNat := by
  obtain ⟨key, recovered, -⟩ := map_eq_ok recovers
  simp only [recoverKey] at recovered
  split at recovered
  · cases recovered
  · rename_i scalars
    obtain ⟨r, s⟩ := not_not.1 scalars
    simp only [isScalar, Bool.and_eq_true, decide_eq_true_eq] at r s
    exact ⟨r.1, s.1⟩

namespace Transaction

/-! ## Parity and chain in one number -/

variable {chain : Option Nat} {parity : Nat}

/-- The least recovery value for a chain, whether it is a quantity or not. -/
def recoveryBase : Option Nat → Nat
  | none => 27
  | some id => 35 + 2 * id

theorem recoveryBase?_eq_some {base : Nat} :
    recoveryBase? chain = some base ↔ recoveryBase chain = base ∧ base < Quantity.bound := by
  cases chain with
  | none =>
      have small : 27 < Quantity.bound := by decide
      simp only [recoveryBase?, recoveryBase, Option.some.injEq]
      exact ⟨fun same => ⟨same, same ▸ small⟩, And.left⟩
  | some id =>
      simp only [recoveryBase?, recoveryBase, Option.bind_eq_bind, Option.bind_eq_some_iff,
        Quantity.mul?_eq_some, Quantity.add?_eq_some]
      constructor
      · rintro ⟨_, ⟨rfl, -⟩, sum, fits⟩
        exact ⟨sum, fits⟩
      · rintro ⟨rfl, fits⟩
        exact ⟨_, ⟨rfl, by omega⟩, rfl, fits⟩

/-- There is a recovery value where the sum of both parts is a quantity. -/
theorem recoveryValue?_eq_some {value : Word} :
    recoveryValue? chain parity = some value ↔
      Word.ofNat (recoveryBase chain + parity) = value ∧
        recoveryBase chain + parity < Quantity.bound := by
  simp only [recoveryValue?, Option.bind_eq_bind, Option.bind_eq_some_iff, recoveryBase?_eq_some,
    Quantity.add?_eq_some, Option.pure_def, Option.some.injEq]
  constructor
  · rintro ⟨_, ⟨rfl, -⟩, _, ⟨rfl, fits⟩, same⟩
    exact ⟨same, fits⟩
  · rintro ⟨same, fits⟩
    exact ⟨_, ⟨rfl, by omega⟩, _, ⟨rfl, fits⟩, same⟩

theorem recovery_fits (chain_fits : ∀ id ∈ chain, 2 * id + 36 < Quantity.bound)
    (bit : parity ≤ 1) : recoveryBase chain + parity < Quantity.bound := by
  cases chain with
  | none =>
      simp only [recoveryBase, Quantity.bound]
      omega
  | some id =>
      have id_fits := chain_fits id rfl
      simp only [recoveryBase]
      omega

namespace WireSignature

variable {signature : Signature}

/-- What stands on the wire where the recovery value is a quantity. -/
def ofSignature (chain : Option Nat) (signature : Signature) : WireSignature :=
  ⟨Word.ofNat (recoveryBase chain + signature.recoveryId), signature.r.toBytes.dropZeros,
    signature.s.toBytes.dropZeros⟩

theorem ofSignature?_eq (chain_fits : ∀ id ∈ chain, 2 * id + 36 < Quantity.bound)
    (bit : signature.recoveryId ≤ 1) :
    ofSignature? chain signature = some (ofSignature chain signature) := by
  rw [ofSignature?, recoveryValue?_eq_some.2 ⟨rfl, recovery_fits chain_fits bit⟩]
  rfl

theorem narrow?_v (chain_fits : ∀ id ∈ chain, 2 * id + 36 < Quantity.bound)
    (bit : signature.recoveryId ≤ 1) :
    Word.narrow? (ofSignature chain signature).v =
      some (recoveryBase chain + signature.recoveryId) := by
  have fits := recovery_fits chain_fits bit
  rw [Word.narrow?_eq_some, ofSignature, Word.toNat_ofNat_of_lt fits]
  exact ⟨rfl, fits⟩

/-- The chain is told by half of the recovery value. -/
theorem chainId_ofSignature (chain_fits : ∀ id ∈ chain, 2 * id + 36 < Quantity.bound)
    (bit : signature.recoveryId ≤ 1) : (ofSignature chain signature).chainId = chain := by
  rw [chainId, narrow?_v chain_fits bit]
  simp only [Option.bind_eq_bind, Option.bind_some]
  cases chain with
  | none => exact if_neg (by rw [recoveryBase]; omega)
  | some id =>
      have half : (35 + 2 * id + signature.recoveryId - 35) / 2 = id := by omega
      rw [recoveryBase, if_pos (by omega), half]

/-- The parity is told by the rest, whether a chain is named or not. -/
theorem recoveryId_ofSignature (chain_fits : ∀ id ∈ chain, 2 * id + 36 < Quantity.bound)
    (bit : signature.recoveryId ≤ 1) :
    (ofSignature chain signature).recoveryId = .ok signature.recoveryId := by
  simp only [recoveryId, narrow?_v chain_fits bit]
  cases chain with
  | none =>
      have unnamed : recoveryBase none + signature.recoveryId - 27 = signature.recoveryId := by
        rw [recoveryBase]
        omega
      rw [if_neg (by rw [recoveryBase]; omega), if_pos (by rw [recoveryBase]; omega), unnamed]
  | some id =>
      have odd : (35 + 2 * id + signature.recoveryId - 35) % 2 = signature.recoveryId := by omega
      rw [recoveryBase, if_neg (by omega), if_neg (by omega), if_pos (by omega), odd]

/-! ## Scalars without zeros in front -/

/-- A component that has lost its zeros in front is widened to what it was. -/
theorem component_dropZeros (name : String) (h : Hash) :
    component name h.toBytes.dropZeros = .ok h := by
  have few : ¬32 < h.toBytes.dropZeros.length := Nat.not_lt.2 (Word.length_toMinimalBytes_le h.bits)
  have widened : Word.ofBytes h.toBytes.dropZeros = h.bits := Word.ofBytes_toMinimalBytes h.bits
  rw [component, if_neg few, widened]

theorem toSignature_ofSignature (chain_fits : ∀ id ∈ chain, 2 * id + 36 < Quantity.bound)
    (bit : signature.recoveryId ≤ 1) : (ofSignature chain signature).toSignature = .ok signature := by
  have r : component "r" (ofSignature chain signature).r = .ok signature.r := component_dropZeros _ _
  have s : component "s" (ofSignature chain signature).s = .ok signature.s := component_dropZeros _ _
  simp only [toSignature, r, s, recoveryId_ofSignature chain_fits bit, bind, Except.bind]

theorem dropZeros_ne_nil {h : Hash} (pos : 0 < h.bits.toNat) : h.toBytes.dropZeros ≠ [] := by
  intro none
  have value := Word.toNat_toMinimalBytes h.bits
  rw [Word.toMinimalBytes, ← Hash.toBytes, none] at value
  exact Nat.ne_of_gt pos value.symm

theorem isPresent_ofSignature (r_pos : 0 < signature.r.bits.toNat)
    (s_pos : 0 < signature.s.bits.toNat) : (ofSignature chain signature).isPresent = true := by
  simp only [isPresent, ofSignature, Bool.and_eq_true, Bool.not_eq_true', List.isEmpty_eq_false_iff]
  exact ⟨dropZeros_ne_nil r_pos, dropZeros_ne_nil s_pos⟩

end WireSignature

/-! ## Signing -/

variable {tx : Transaction} {key : PrivateKey} {signature : Signature}

theorem sign_eq_ok (made : Crypto.sign (tx.signingHashFor chain) key = .ok signature)
    (chain_fits : ∀ id ∈ chain, 2 * id + 36 < Quantity.bound) (bit : signature.recoveryId ≤ 1) :
    tx.sign key chain = .ok { tx with signature := .ofSignature chain signature } := by
  rw [sign, made]
  simp only [Except.mapError, bind, Except.bind, WireSignature.ofSignature?_eq chain_fits bit]

/-- What is signed does not depend on the signature that is there. -/
theorem signingHashFor_signature (tx : Transaction) (wire : WireSignature) (chain : Option Nat) :
    ({ tx with signature := wire } : Transaction).signingHashFor chain = tx.signingHashFor chain := by
  have payload : ({ tx with signature := wire } : Transaction).payload = tx.payload :=
    payload_inj.2 ⟨rfl, rfl, rfl, rfl, rfl, rfl⟩
  rw [signingHashFor, signingHashFor, signingPreimage_eq, signingPreimage_eq, signedItems,
    signedItems, payload]

theorem recoverSender_ofSignature (chain_fits : ∀ id ∈ chain, 2 * id + 36 < Quantity.bound)
    (recoverable : Crypto.Recoverable key (tx.signingHashFor chain) signature) :
    ({ tx with signature := .ofSignature chain signature } : Transaction).recoverSender =
      .ok key.publicKey.toAddress := by
  obtain ⟨r_pos, s_pos⟩ := Crypto.nonzero_of_recoverSigner recoverable.recovers
  have present : (WireSignature.ofSignature chain signature).isPresent = true :=
    WireSignature.isPresent_ofSignature r_pos s_pos
  have restored := WireSignature.toSignature_ofSignature chain_fits recoverable.parity
  have named := WireSignature.chainId_ofSignature chain_fits recoverable.parity
  simp only [recoverSender, isSigned, present, signingHash, named, signingHashFor_signature,
    restored, recoverable.recovers, Bool.not_true, bind, Except.bind, Except.mapError]
  rfl

/-! ## How long a signed transaction is -/

theorem length_encode_string_le {bytes : Bytes} (few : bytes.length ≤ 32) :
    (Rlp.encode (.string bytes)).length ≤ 33 := by
  have written := Rlp.length_encodeBytes_le_of_short (Nat.le_trans few (by decide))
  rw [Rlp.encode]
  omega

/-- Beside the data there are nine headers, and five words, a recipient and two scalars. -/
theorem length_encode_lt (data_fits : tx.data.length < Quantity.signedBound)
    (r_few : tx.signature.r.length ≤ 32) (s_few : tx.signature.s.length ≤ 32) :
    tx.encode.length < Quantity.bound := by
  have recipient_few : tx.fields.recipient.length ≤ 32 := by
    simp only [fields]
    cases tx.action with
    | create => exact Nat.zero_le 32
    | call account => rw [Address.length_toBytes]; decide
  have nonce := length_encode_string_le (Word.length_toMinimalBytes_le tx.nonce)
  have gasPrice := length_encode_string_le (Word.length_toMinimalBytes_le tx.gasPrice)
  have gasLimit := length_encode_string_le (Word.length_toMinimalBytes_le tx.gasLimit)
  have recipient := length_encode_string_le recipient_few
  have value := length_encode_string_le (Word.length_toMinimalBytes_le tx.value)
  have v := length_encode_string_le (Word.length_toMinimalBytes_le tx.signature.v)
  have r := length_encode_string_le r_few
  have s := length_encode_string_le s_few
  have room : Quantity.signedBound + 282 < Quantity.bound := by decide
  have data : (Rlp.encode (.string tx.data)).length ≤ 9 + tx.data.length := by
    have written := Rlp.length_encodeBytes_le tx.data
    have data_short : tx.data.length < Quantity.bound := by omega
    have head := Rlp.header_length_le Rlp.stringBase data_short
    rw [Rlp.encode]
    omega
  have payload : (Rlp.encodeAll tx.fields.items).length ≤ tx.data.length + 273 := by
    simp only [Fields.items, Rlp.encodeAll, List.length_append, List.length_nil]
    simp only [fields] at recipient ⊢
    omega
  have payload_fits : (Rlp.encodeAll tx.fields.items).length < Quantity.bound := by omega
  have head := Rlp.header_length_le Rlp.listBase payload_fits
  rw [encode_eq, Rlp.encode_list payload_fits, List.length_append]
  omega

theorem length_encode_ofSignature_lt (data_fits : tx.data.length < Quantity.signedBound) :
    ({ tx with signature := .ofSignature chain signature } : Transaction).encode.length <
      Quantity.bound :=
  length_encode_lt data_fits (Word.length_toMinimalBytes_le signature.r.bits)
    (Word.length_toMinimalBytes_le signature.s.bits)

/-- A signed transaction does what the transaction did, and tells the chain that it was signed for
and the signature that was made, whichever zeros were left out.  Its sender is the address of the
key, when it is asked at once and when it has been sent: the byte string that is written is read as
the same transaction, and it is always short enough where the data fits into memory. -/
theorem recoverSender_sign (chain_fits : ∀ id ∈ chain, 2 * id + 36 < Quantity.bound)
    (recoverable : Crypto.Recoverable key (tx.signingHashFor chain) signature) :
    ∃ signed, tx.sign key chain = .ok signed ∧ Agrees signed tx ∧ signed.isSigned = true ∧
      signed.signature.chainId = chain ∧
      signed.signature.recoveryId = .ok signature.recoveryId ∧
      signed.signature.toSignature = .ok signature ∧
      signed.recoverSender = .ok key.publicKey.toAddress ∧
      (signed.encode.length < Quantity.bound →
        parse signed.encode = .ok signed ∧
          (parse signed.encode).bind recoverSender = .ok key.publicKey.toAddress) ∧
      (tx.data.length < Quantity.signedBound → signed.encode.length < Quantity.bound) := by
  obtain ⟨r_pos, s_pos⟩ := Crypto.nonzero_of_recoverSigner recoverable.recovers
  have sender := recoverSender_ofSignature chain_fits recoverable
  refine ⟨_, sign_eq_ok recoverable.made chain_fits recoverable.parity, ⟨rfl, rfl, rfl, rfl, rfl, rfl⟩,
    WireSignature.isPresent_ofSignature r_pos s_pos,
    WireSignature.chainId_ofSignature chain_fits recoverable.parity,
    WireSignature.recoveryId_ofSignature chain_fits recoverable.parity,
    WireSignature.toSignature_ofSignature chain_fits recoverable.parity, sender, ?_,
    length_encode_ofSignature_lt⟩
  intro fits
  have back := parse_eq_ok_iff.2 (wireForm_encode fits)
  refine ⟨back, ?_⟩
  rw [back]
  exact sender

/-- A key of 32 equal bytes. -/
def sampleKey : PrivateKey where
  scalar := 0x4646464646464646464646464646464646464646464646464646464646464646
  pos := by decide
  lt_order := by decide

/-- A transfer whose signature for `farthestChain` begins with a zero byte. -/
def transfer : Transaction where
  action := .call ⟨0x3535353535353535353535353535353535353535⟩
  nonce := 1258
  gasPrice := 20000000000
  gasLimit := 21000
  value := 1000000000000000000
  data := []

/-- The greatest chain whose recovery values are 64-bit quantities for either parity. -/
def farthestChain : Nat := 9223372036854775789

/-- The signature of the transfer for that chain. -/
def transferSignature : Signature where
  r := ⟨83016814971021981995174664369344504398576790984390715069197563011624519609⟩
  s := ⟨37955179039880360112300999134041606132438678805473672125270352432913065456626⟩
  recoveryId := 1

/-- The first component is sent in 31 bytes and the recovery value is the greatest one but one that
fits, and the sender is found. -/
theorem recoverSender_sign_transfer :
    (∀ id ∈ some farthestChain, 2 * id + 36 < Quantity.bound) ∧
      Crypto.Recoverable sampleKey (transfer.signingHashFor (some farthestChain))
        transferSignature ∧
      transferSignature.r.toBytes.dropZeros.length = 31 ∧
      recoveryValue? (some farthestChain) transferSignature.recoveryId =
        some (Word.ofNat (Quantity.greatest - 1)) ∧
      ∃ signed, transfer.sign sampleKey (some farthestChain) = .ok signed ∧
        (parse signed.encode).bind recoverSender = .ok sampleKey.publicKey.toAddress := by
  have chain_fits : ∀ id ∈ some farthestChain, 2 * id + 36 < Quantity.bound := by
    intro id named
    cases named
    decide
  have recoverable : Crypto.Recoverable sampleKey (transfer.signingHashFor (some farthestChain))
      transferSignature := by
    refine ⟨?_, by decide, ?_⟩
    · decide +kernel
    · decide +kernel
  obtain ⟨signed, done, -, -, -, -, -, -, sent, short⟩ := recoverSender_sign chain_fits recoverable
  have data_fits : transfer.data.length < Quantity.signedBound := by decide
  exact ⟨chain_fits, recoverable, by decide +kernel, by decide +kernel, signed, done,
    (sent (short data_fits)).2⟩

end Transaction

end EvmLedger
