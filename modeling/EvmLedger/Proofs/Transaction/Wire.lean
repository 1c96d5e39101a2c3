/-
# EvmLedger.Proofs.Transaction.Wire -- the byte strings that stand for a transaction

On the wire a transaction is nine byte strings (`Fields`).  Five of them are
scalars, and zeros in front of a scalar carry no value; the recipient is missing
or an address; the other three stand for themselves.  `Denotes` says which
transaction nine byte strings stand for, and `WireForm` which byte strings are
read as it, through the permissive reader of lists and strings.

`parse_eq_ok_iff` ties the reader to that relation.  A transaction has many wire
forms; the one that is written has the fields without zeros in front and the
lengths in their shortest form, so it is the shortest of them
(`length_encode_le`).  Its digest names the transaction whatever form it came in.
-/
import EvmLedger.Proofs.Failure
import EvmLedger.Proofs.Rlp.Canonical
import EvmLedger.Proofs.Word.Bytes
import EvmLedger.Transaction

namespace EvmLedger

set_option autoImplicit false

namespace Rlp.Item

theorem bytes?_eq_ok {item : Item} {bytes : Bytes} :
    item.bytes? = .ok bytes ↔ item = .string bytes := by
  cases item <;> simp [bytes?]

theorem word?_eq_ok {item : Item} {w : Word} :
    item.word? = .ok w ↔
      ∃ bytes, item = .string bytes ∧ bytes.length ≤ 32 ∧ bytes.toNat = w.toNat := by
  cases item with
  | list items => simp [word?, bytes?, bind, Except.bind]
  | string bytes =>
      simp only [word?, bytes?, bind, Except.bind, Word.ofBytes?, string.injEq, exists_eq_left']
      by_cases long : 32 < bytes.length
      · simp [long, Nat.not_le.2 long]
      · have fits : bytes.length ≤ 32 := Nat.le_of_not_lt long
        simp only [long, if_false, Except.ok.injEq, fits, true_and]
        rw [← BitVec.toNat_inj, Word.toNat_ofBytes fits]

end Rlp.Item

namespace Transaction

/-! ## Nine byte strings -/

/-- The fields of a transaction as they stand on the wire. -/
structure Fields where
  nonce : Bytes
  gasPrice : Bytes
  gasLimit : Bytes
  recipient : Bytes
  value : Bytes
  data : Bytes
  v : Bytes
  r : Bytes
  s : Bytes
  deriving DecidableEq, Repr

namespace Fields

/-- The values of the list on the wire. -/
def items (fields : Fields) : List Rlp.Item :=
  [.string fields.nonce, .string fields.gasPrice, .string fields.gasLimit,
    .string fields.recipient, .string fields.value, .string fields.data, .string fields.v,
    .string fields.r, .string fields.s]

/-- The fields that hold a number. -/
def scalars (fields : Fields) : List Bytes :=
  [fields.nonce, fields.gasPrice, fields.gasLimit, fields.value, fields.v]

end Fields

/-- A byte string of at most 32 bytes that is worth a word, with any zeros in front. -/
def Scalar (bytes : Bytes) (w : Word) : Prop := bytes.length ≤ 32 ∧ bytes.toNat = w.toNat

/-- No bytes stand for a creation, the bytes of an address for a call to it. -/
inductive Names : Bytes → Action → Prop
  | nobody : Names [] .create
  | account (recipient : Address) : Names recipient.toBytes (.call recipient)

/-- The transaction that nine byte strings stand for. -/
structure Fields.Denotes (fields : Fields) (tx : Transaction) : Prop where
  action : Names fields.recipient tx.action
  nonce : Scalar fields.nonce tx.nonce
  gasPrice : Scalar fields.gasPrice tx.gasPrice
  gasLimit : Scalar fields.gasLimit tx.gasLimit
  value : Scalar fields.value tx.value
  data : fields.data = tx.data
  v : Scalar fields.v tx.signature.v
  r : fields.r = tx.signature.r
  s : fields.s = tx.signature.s

/-- A byte string that holds nine byte strings which stand for a transaction. -/
def WireForm (tx : Transaction) (raw : Bytes) : Prop :=
  ∃ fields : Fields, Rlp.decode raw = .ok (.list fields.items) ∧ fields.Denotes tx

theorem names_iff {bytes : Bytes} :
    (∃ action, Names bytes action) ↔ bytes.length = 0 ∨ bytes.length = 20 := by
  constructor
  · rintro ⟨action, named⟩
    cases named with
    | nobody => exact Or.inl rfl
    | account recipient => exact Or.inr (Address.length_toBytes recipient)
  · rintro (none | whole)
    · rw [List.length_eq_zero_iff.1 none]
      exact ⟨.create, .nobody⟩
    · rw [← Address.toBytes_ofLowBytes whole]
      exact ⟨_, .account _⟩

theorem scalar_ofBytes {bytes : Bytes} (fits : bytes.length ≤ 32) :
    Scalar bytes (Word.ofBytes bytes) :=
  ⟨fits, (Word.toNat_ofBytes fits).symm⟩

/-- Byte strings of the right lengths stand for some transaction. -/
theorem Fields.exists_denotes_iff {fields : Fields} :
    (∃ tx, fields.Denotes tx) ↔
      (fields.recipient.length = 0 ∨ fields.recipient.length = 20) ∧
        ∀ scalar ∈ fields.scalars, scalar.length ≤ 32 := by
  rw [← names_iff]
  simp only [scalars, List.forall_mem_cons]
  constructor
  · rintro ⟨tx, denotes⟩
    refine ⟨⟨_, denotes.action⟩, denotes.nonce.1, denotes.gasPrice.1, denotes.gasLimit.1,
      denotes.value.1, denotes.v.1, nofun⟩
  · rintro ⟨⟨action, named⟩, nonce, gasPrice, gasLimit, value, v, -⟩
    refine ⟨⟨action, .ofBytes fields.nonce, .ofBytes fields.gasPrice, .ofBytes fields.gasLimit,
      .ofBytes fields.value, fields.data, ⟨.ofBytes fields.v, fields.r, fields.s⟩⟩, ?_⟩
    exact ⟨named, scalar_ofBytes nonce, scalar_ofBytes gasPrice, scalar_ofBytes gasLimit,
      scalar_ofBytes value, rfl, scalar_ofBytes v, rfl, rfl⟩

/-! ## Reading -/

theorem readAction_eq_ok {bytes : Bytes} {action : Action} :
    readAction bytes = .ok action ↔ Names bytes action := by
  unfold readAction
  constructor
  · intro read
    split at read
    · rename_i none
      cases read
      rw [List.length_eq_zero_iff.1 none]
      exact .nobody
    · split at read
      · rename_i whole
        cases read
        have named := Names.account (.ofLowBytes bytes)
        rwa [Address.toBytes_ofLowBytes whole] at named
      · cases read
  · intro named
    cases named with
    | nobody => rfl
    | account recipient =>
        simp [Address.length_toBytes, Address.ofLowBytes_toBytes]

theorem denotes_of_ofItems {items : List Rlp.Item} {tx : Transaction}
    (read : ofItems items = .ok tx) :
    ∃ fields : Fields, items = fields.items ∧ fields.Denotes tx := by
  unfold ofItems at read
  split at read
  · -- the fields are read in the order in which their errors are reported
    obtain ⟨recipient, recipient_read, read⟩ := bind_eq_ok read
    obtain ⟨action, action_read, read⟩ := bind_eq_ok read
    obtain ⟨nonce, nonce_read, read⟩ := bind_eq_ok read
    obtain ⟨gasPrice, gasPrice_read, read⟩ := bind_eq_ok read
    obtain ⟨gasLimit, gasLimit_read, read⟩ := bind_eq_ok read
    obtain ⟨value, value_read, read⟩ := bind_eq_ok read
    obtain ⟨data, data_read, read⟩ := bind_eq_ok read
    obtain ⟨v, v_read, read⟩ := bind_eq_ok read
    obtain ⟨r, r_read, read⟩ := bind_eq_ok read
    obtain ⟨s, s_read, read⟩ := bind_eq_ok read
    cases read
    have named := readAction_eq_ok.1 action_read
    obtain ⟨nonceBytes, rfl, nonce_worth⟩ := Rlp.Item.word?_eq_ok.1 (mapError_eq_ok nonce_read)
    obtain ⟨priceBytes, rfl, price_worth⟩ := Rlp.Item.word?_eq_ok.1 (mapError_eq_ok gasPrice_read)
    obtain ⟨limitBytes, rfl, limit_worth⟩ := Rlp.Item.word?_eq_ok.1 (mapError_eq_ok gasLimit_read)
    obtain ⟨valueBytes, rfl, value_worth⟩ := Rlp.Item.word?_eq_ok.1 (mapError_eq_ok value_read)
    obtain ⟨vBytes, rfl, v_worth⟩ := Rlp.Item.word?_eq_ok.1 (mapError_eq_ok v_read)
    obtain rfl := Rlp.Item.bytes?_eq_ok.1 (mapError_eq_ok recipient_read)
    obtain rfl := Rlp.Item.bytes?_eq_ok.1 (mapError_eq_ok data_read)
    obtain rfl := Rlp.Item.bytes?_eq_ok.1 (mapError_eq_ok r_read)
    obtain rfl := Rlp.Item.bytes?_eq_ok.1 (mapError_eq_ok s_read)
    refine ⟨⟨nonceBytes, priceBytes, limitBytes, recipient, valueBytes, data, vBytes, r, s⟩, rfl, ?_⟩
    exact ⟨named, nonce_worth, price_worth, limit_worth, value_worth, rfl, v_worth, rfl, rfl⟩
  · cases read

theorem word?_of_scalar {bytes : Bytes} {w : Word} (scalar : Scalar bytes w) :
    (Rlp.Item.string bytes).word? = .ok w :=
  Rlp.Item.word?_eq_ok.2 ⟨bytes, rfl, scalar⟩

theorem ofItems_of_denotes {fields : Fields} {tx : Transaction} (denotes : fields.Denotes tx) :
    ofItems fields.items = .ok tx := by
  have named := readAction_eq_ok.2 denotes.action
  have nonce := word?_of_scalar denotes.nonce
  have gasPrice := word?_of_scalar denotes.gasPrice
  have gasLimit := word?_of_scalar denotes.gasLimit
  have value := word?_of_scalar denotes.value
  have v := word?_of_scalar denotes.v
  simp only [Fields.items, ofItems, Rlp.Item.bytes?, bind, Except.bind, Except.mapError, named,
    nonce, gasPrice, gasLimit, value, v, denotes.data, denotes.r, denotes.s]

/-- What is read as a transaction is what stands for it. -/
theorem parse_eq_ok_iff {raw : Bytes} {tx : Transaction} :
    parse raw = .ok tx ↔ WireForm tx raw := by
  constructor
  · intro read
    unfold parse at read
    split at read
    · cases read
    · cases read
    · rename_i items decoded
      obtain ⟨fields, rfl, denotes⟩ := denotes_of_ofItems read
      exact ⟨fields, decoded, denotes⟩
  · rintro ⟨fields, decoded, denotes⟩
    simp only [parse, decoded]
    exact ofItems_of_denotes denotes

/-! ## Writing -/

/-- The fields as they are written. -/
def fields (tx : Transaction) : Fields where
  nonce := tx.nonce.toMinimalBytes
  gasPrice := tx.gasPrice.toMinimalBytes
  gasLimit := tx.gasLimit.toMinimalBytes
  recipient := match tx.action with
    | .create => []
    | .call recipient => recipient.toBytes
  value := tx.value.toMinimalBytes
  data := tx.data
  v := tx.signature.v.toMinimalBytes
  r := tx.signature.r
  s := tx.signature.s

theorem encode_eq (tx : Transaction) : tx.encode = Rlp.encode (.list tx.fields.items) := by
  cases action : tx.action <;>
    simp [encode, Rlp.encodeList, Rlp.encode, payload, fields, Fields.items, action,
      Rlp.Item.ofWord, Rlp.Item.empty, Rlp.Item.ofAddress]

theorem scalar_toMinimalBytes (w : Word) : Scalar w.toMinimalBytes w :=
  ⟨Word.length_toMinimalBytes_le w, Word.toNat_toMinimalBytes w⟩

theorem fields_denotes (tx : Transaction) : tx.fields.Denotes tx where
  action := by
    simp only [fields]
    cases tx.action with
    | create => exact .nobody
    | call recipient => exact .account recipient
  nonce := scalar_toMinimalBytes _
  gasPrice := scalar_toMinimalBytes _
  gasLimit := scalar_toMinimalBytes _
  value := scalar_toMinimalBytes _
  data := rfl
  v := scalar_toMinimalBytes _
  r := rfl
  s := rfl

theorem depth_items (fields : Fields) : (Rlp.Item.list fields.items).depth = 1 := by
  simp [Fields.items, Rlp.Item.depth, Rlp.deepest]

/-- The written form is a wire form. -/
theorem wireForm_encode {tx : Transaction} (fits : tx.encode.length < Quantity.bound) :
    WireForm tx tx.encode := by
  refine ⟨tx.fields, ?_, fields_denotes tx⟩
  rw [encode_eq] at fits ⊢
  rw [Rlp.decode_derived (Rlp.derives_encode _ fits) fits, depth_items]
  rfl

theorem scalar_suffix {bytes : Bytes} {w : Word} (scalar : Scalar bytes w) :
    w.toMinimalBytes <:+ bytes := by
  rw [Word.toMinimalBytes_eq_dropZeros scalar.1 scalar.2]
  exact Bytes.dropZeros_suffix bytes

theorem recipient_fields {bytes : Bytes} {tx : Transaction} (named : Names bytes tx.action) :
    tx.fields.recipient = bytes := by
  simp only [fields]
  generalize tx.action = action at named
  cases named <;> rfl

theorem length_encode_scalar_le {bytes : Bytes} {w : Word} (scalar : Scalar bytes w) :
    (Rlp.encode (.string w.toMinimalBytes)).length ≤ (Rlp.encode (.string bytes)).length := by
  simp only [Rlp.encode]
  apply Rlp.length_encodeBytes_mono (scalar_suffix scalar)
  exact Nat.lt_of_le_of_lt scalar.1 (by decide)

/-- Of the fields that stand for a transaction, none is shorter than the one that is written. -/
theorem items_fields_shortest {fields : Fields} {tx : Transaction} (denotes : fields.Denotes tx) :
    List.Forall₂ (fun item other => (Rlp.encode item).length ≤ (Rlp.encode other).length)
      tx.fields.items fields.items := by
  have recipient := recipient_fields denotes.action
  simp only [Fields.items, List.forall₂_cons, recipient, denotes.data,
    denotes.r, denotes.s]
  exact ⟨length_encode_scalar_le denotes.nonce, length_encode_scalar_le denotes.gasPrice,
    length_encode_scalar_le denotes.gasLimit, Nat.le_refl _, length_encode_scalar_le denotes.value,
    Nat.le_refl _, length_encode_scalar_le denotes.v, Nat.le_refl _, Nat.le_refl _, .nil⟩

/-- No wire form is shorter than the written form. -/
theorem length_encode_le {tx : Transaction} {raw : Bytes} (form : WireForm tx raw) :
    tx.encode.length ≤ raw.length := by
  obtain ⟨fields, decoded, denotes⟩ := form
  have fits := Rlp.length_lt_of_decode decoded
  have derived := (Rlp.derives_of_decode decoded).1
  have written : (Rlp.encode (.list fields.items)).length ≤ raw.length :=
    (Rlp.encode_noLonger derived fits).length_le
  have payload : (Rlp.encodeAll fields.items).length < Quantity.bound := by
    rw [Rlp.encode, List.length_append] at written
    omega
  rw [encode_eq]
  exact Nat.le_trans (Rlp.length_encode_list_mono (items_fields_shortest denotes) payload) written

/-- A transaction that is written is read back.  What is read as a transaction is a list of nine
byte strings, the recipient of no bytes or of twenty and the five scalars of at most 32, and nothing
else; it is the transaction that they stand for.  Written again it takes no more bytes, and is the
same transaction: all byte strings that stand for it are read to one digest. -/
theorem parse_encode :
    (∀ tx : Transaction, tx.encode.length < Quantity.bound → parse tx.encode = .ok tx) ∧
    ∀ raw : Bytes,
      ((∃ tx, parse raw = .ok tx) ↔
        ∃ fields : Fields, Rlp.decode raw = .ok (.list fields.items) ∧
          (fields.recipient.length = 0 ∨ fields.recipient.length = 20) ∧
          ∀ scalar ∈ fields.scalars, scalar.length ≤ 32) ∧
      ∀ tx, (parse raw = .ok tx ↔ WireForm tx raw) ∧
        (parse raw = .ok tx →
          tx.encode.length ≤ raw.length ∧ parse tx.encode = .ok tx ∧
          ∀ other, WireForm tx other → (parse other).map hash = (parse raw).map hash) := by
  have back : ∀ tx : Transaction, tx.encode.length < Quantity.bound → parse tx.encode = .ok tx :=
    fun tx fits => parse_eq_ok_iff.2 (wireForm_encode fits)
  refine ⟨back, fun raw => ⟨?_, fun tx => ⟨parse_eq_ok_iff, fun read => ?_⟩⟩⟩
  · simp only [parse_eq_ok_iff, WireForm, ← Fields.exists_denotes_iff]
    constructor
    · rintro ⟨tx, fields, decoded, denotes⟩
      exact ⟨fields, decoded, tx, denotes⟩
    · rintro ⟨fields, decoded, tx, denotes⟩
      exact ⟨tx, fields, decoded, denotes⟩
  · have form := parse_eq_ok_iff.1 read
    have shorter := length_encode_le form
    obtain ⟨fields, decoded, denotes⟩ := form
    have fits := Nat.lt_of_le_of_lt shorter (Rlp.length_lt_of_decode decoded)
    refine ⟨shorter, back tx fits, fun other otherForm => ?_⟩
    rw [parse_eq_ok_iff.2 otherForm, read]

/-- A call of one account, in long lengths, with zeros in front of the nonce and the value. -/
def roundabout : Bytes :=
  [0xf8, 34, 0x82, 0, 1, 0x80, 0x82, 0x52, 0x08, 0x94] ++ List.replicate 20 0x11 ++
    [0, 0x81, 5, 27, 1, 2]

/-- The transaction that it stands for. -/
def roundaboutCall : Transaction where
  action := .call ⟨0x1111111111111111111111111111111111111111⟩
  nonce := 1
  gasPrice := 0
  gasLimit := 21000
  value := 0
  data := [5]
  signature := ⟨27, [1], [2]⟩

/-- It is read, and written with four bytes less. -/
theorem parse_encode_roundabout :
    parse roundabout = .ok roundaboutCall ∧
      roundaboutCall.encode =
        [0xdf, 1, 0x80, 0x82, 0x52, 0x08, 0x94] ++ List.replicate 20 0x11 ++ [0x80, 5, 27, 1, 2] ∧
      parse roundaboutCall.encode = .ok roundaboutCall ∧ WireForm roundaboutCall roundabout ∧
      (parse roundaboutCall.encode).map hash = (parse roundabout).map hash := by
  have read : parse roundabout = .ok roundaboutCall := by decide +kernel
  have written : roundaboutCall.encode =
      [0xdf, 1, 0x80, 0x82, 0x52, 0x08, 0x94] ++ List.replicate 20 0x11 ++ [0x80, 5, 27, 1, 2] := by
    decide +kernel
  have fits : roundaboutCall.encode.length < Quantity.bound := by
    rw [written]
    decide
  obtain ⟨forms, whole⟩ := (parse_encode.2 roundabout).2 roundaboutCall
  obtain ⟨_, back, share⟩ := whole read
  refine ⟨read, written, parse_encode.1 roundaboutCall fits, forms.1 read, ?_⟩
  exact share roundaboutCall.encode (((parse_encode.2 _).2 _).1.1 back)

end Transaction

end EvmLedger
