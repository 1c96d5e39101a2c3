/-
# EvmLedger.Proofs.Word.Codec -- words and addresses made from other data

A word is made from bytes, from an address, and from a sign and a magnitude, and is
taken apart into each of them.

* Bytes: a byte string of at most 32 bytes is read as the word of the same value, and
  a longer one is refused (`ofBytes?_eq_ok_iff`) or cut (`toNat_ofBytesTruncating`).
  The form without zeros in front is the shortest that a word is read from
  (`isLeast_length_toMinimalBytes`).
* Addresses: they are taken from the low bits of a word, which is the same as from its
  last bytes (`ofLowBytes_toBytes_word`), and come back unchanged.
* Signs: the magnitude is the absolute value, also that of the least word, which is
  its own negation (`toNat_magnitude`).

`codecs_exact` is all of this together.
-/
import EvmLedger.Proofs.Word.Arithmetic
import EvmLedger.Proofs.Word.Bytes

namespace EvmLedger

set_option autoImplicit false

namespace Word

/-! ## Bytes -/

theorem ofBytes?_eq (bytes : Bytes) :
    ofBytes? bytes = if bytes.length ≤ 32 then .ok (ofBytes bytes) else .error ⟨bytes.length⟩ := by
  unfold ofBytes?
  by_cases fits : bytes.length ≤ 32
  · rw [if_pos fits, if_neg (Nat.not_lt.2 fits)]
  · rw [if_neg fits, if_pos (Nat.not_le.1 fits)]

theorem ofBytes?_eq_ok_iff {bytes : Bytes} {w : Word} :
    ofBytes? bytes = .ok w ↔ bytes.length ≤ 32 ∧ bytes.toNat = w.toNat := by
  rw [ofBytes?_eq]
  by_cases fits : bytes.length ≤ 32
  · rw [if_pos fits, Except.ok.injEq, ← toNat_ofBytes fits, BitVec.toNat_inj]
    exact (and_iff_right fits).symm
  · rw [if_neg fits]
    exact iff_of_false nofun fun read => fits read.1

theorem toNat_ofBytesTruncating (bytes : Bytes) :
    (ofBytesTruncating bytes).toNat = bytes.toNat % 2 ^ 256 := by
  rw [ofBytesTruncating, ofBytes, BitVec.toNat_ofNat, Bytes.toNat_takeLast, pow_bytes, Nat.mod_mod]

theorem ofBytes?_toMinimalBytes (w : Word) : ofBytes? (toMinimalBytes w) = .ok w :=
  ofBytes?_eq_ok_iff.2 ⟨length_toMinimalBytes_le w, toNat_toMinimalBytes w⟩

theorem ofBytes?_toBytes (w : Word) : ofBytes? (toBytes w) = .ok w :=
  ofBytes?_eq_ok_iff.2 ⟨(Bytes.ofNat_length _ _).le, toNat_toBytes w⟩

/-- Fewer bytes than a word has without zeros in front are worth less than the word. -/
theorem isLeast_length_toMinimalBytes (w : Word) :
    IsLeast {length | ∃ bytes : Bytes, bytes.length = length ∧ ofBytes? bytes = .ok w}
      (toMinimalBytes w).length := by
  constructor
  · exact ⟨toMinimalBytes w, rfl, ofBytes?_toMinimalBytes w⟩
  · rintro _ ⟨bytes, rfl, read⟩
    rw [length_toMinimalBytes_le_iff, ← (ofBytes?_eq_ok_iff.1 read).2]
    exact Bytes.toNat_lt bytes

/-! ## Signs -/

theorem fst_signMagnitude (w : Word) : (signMagnitude w).1 = decide (w.toInt < 0) := by
  rw [← BitVec.msb_eq_toInt, signMagnitude, isNegative]
  cases w.msb <;> rfl

theorem toNat_magnitude (w : Word) : (signMagnitude w).2.toNat = w.toInt.natAbs := by
  have bounded := w.isLt
  unfold signMagnitude isNegative
  rw [BitVec.msb_eq_decide, BitVec.toInt_eq_toNat_cond]
  by_cases negative : 2 ^ 255 ≤ w.toNat
  · rw [if_pos (by simpa using negative), negate_eq, BitVec.toNat_neg, if_neg (by omega)]
    omega
  · rw [if_neg (by simpa using negative), if_pos (by omega)]
    rfl

theorem ofSignMagnitude_signMagnitude (w : Word) :
    ofSignMagnitude (signMagnitude w).1 (signMagnitude w).2 = w := by
  unfold signMagnitude ofSignMagnitude
  cases isNegative w with
  | true => simp [negate_eq]
  | false => rfl

end Word

namespace Address

/-! ## Addresses -/

theorem toNat_ofLowBytes (bytes : Bytes) :
    (ofLowBytes bytes).bits.toNat = bytes.toNat % 2 ^ 160 := by
  rw [ofLowBytes, BitVec.toNat_ofNat, Bytes.toNat_takeLast, pow_bytes, Nat.mod_mod]

theorem ofLowBytes_toBytes_word (w : Word) : ofLowBytes w.toBytes = ofWord w := by
  have values : (ofLowBytes w.toBytes).bits = (ofWord w).bits := by
    apply BitVec.eq_of_toNat_eq
    rw [toNat_ofLowBytes, Word.toNat_toBytes, ofWord, BitVec.toNat_setWidth]
  exact congrArg Address.mk values

theorem toNat_toWord (a : Address) : a.toWord.toNat = a.bits.toNat := by
  have wider : a.bits.toNat < 2 ^ 256 := a.bits.isLt.trans (by decide)
  rw [toWord, BitVec.toNat_setWidth, Nat.mod_eq_of_lt wider]

theorem ofBytes_toBytes (a : Address) : Word.ofBytes a.toBytes = a.toWord := by
  apply BitVec.eq_of_toNat_eq
  rw [Word.toNat_ofBytes (by simp), toNat_toBytes, toNat_toWord]

theorem toNat_toWord_ofWord (w : Word) : (ofWord w).toWord.toNat = w.toNat % 2 ^ 160 := by
  rw [toNat_toWord, ofWord, BitVec.toNat_setWidth]

end Address

/-! ## All conversions -/

/-- What is made of other data is of the same value, and nothing is lost on the way that fits.

A word is read from its bytes, with or without the zeros in front, and from no fewer.  A byte string
is read if and only if it has at most 32 bytes, and the word is written with these bytes again but
for the zeros in front; cut to its last 32 bytes, it is worth its value modulo `2 ^ 256`, and the
address of its last 20 bytes is its value modulo `2 ^ 160`.  An address comes back from the word that
it is widened to, and a word from its address modulo `2 ^ 160`.  A word is made up again from its sign
and its absolute value. -/
theorem codecs_exact :
    (∀ w : Word,
      Word.ofBytes? w.toMinimalBytes = .ok w ∧
      Word.ofBytes? w.toBytes = .ok w ∧ w.toBytes.length = 32 ∧
      IsLeast {length | ∃ bytes : Bytes, bytes.length = length ∧ Word.ofBytes? bytes = .ok w}
        w.toMinimalBytes.length) ∧
    (∀ bytes : Bytes,
      (Word.ofBytes? bytes).map BitVec.toNat =
        (if bytes.length ≤ 32 then .ok (Nat.ofDigits 256 (bytes.reverse.map UInt8.toNat))
          else .error ⟨bytes.length⟩) ∧
      (Word.ofBytes? bytes).map Word.toMinimalBytes =
        (if bytes.length ≤ 32 then .ok (bytes.dropWhile (· == 0)) else .error ⟨bytes.length⟩) ∧
      (Word.ofBytesTruncating bytes).toNat =
        Nat.ofDigits 256 (bytes.reverse.map UInt8.toNat) % 2 ^ 256 ∧
      (Address.ofLowBytes bytes).bits.toNat =
        Nat.ofDigits 256 (bytes.reverse.map UInt8.toNat) % 2 ^ 160) ∧
    (∀ a : Address, a.toWord = Word.ofBytes a.toBytes ∧ Address.ofWord a.toWord = a) ∧
    (∀ w : Word,
      Address.ofWord w = Address.ofLowBytes w.toBytes ∧
      (Address.ofWord w).toWord.toNat = w.toNat % 2 ^ 160) ∧
    (∀ w : Word,
      (Word.signMagnitude w).1 = decide (w.toInt < 0) ∧
      (Word.signMagnitude w).2.toNat = w.toInt.natAbs ∧
      Word.ofSignMagnitude (Word.signMagnitude w).1 (Word.signMagnitude w).2 = w) := by
  refine ⟨?words, ?bytes, ?addresses, ?cut, ?signs⟩
  case words =>
    intro w
    exact ⟨Word.ofBytes?_toMinimalBytes w, Word.ofBytes?_toBytes w, Bytes.ofNat_length _ _,
      Word.isLeast_length_toMinimalBytes w⟩
  case bytes =>
    intro bytes
    rw [Word.ofBytes?_eq, Word.toNat_ofBytesTruncating, Address.toNat_ofLowBytes,
      ← Bytes.toNat_eq_ofDigits]
    by_cases fits : bytes.length ≤ 32
    · have worth := Word.toNat_ofBytes fits
      have written := Word.toMinimalBytes_eq_dropZeros fits worth.symm
      simp only [if_pos fits, Except.map, worth, written, Bytes.dropZeros, and_self]
    · simp only [if_neg fits, Except.map, and_self]
  case addresses =>
    intro a
    exact ⟨(Address.ofBytes_toBytes a).symm, Address.ofWord_toWord a⟩
  case cut =>
    intro w
    exact ⟨(Address.ofLowBytes_toBytes_word w).symm, Address.toNat_toWord_ofWord w⟩
  case signs =>
    intro w
    exact ⟨Word.fst_signMagnitude w, Word.toNat_magnitude w, Word.ofSignMagnitude_signMagnitude w⟩

/-- The absolute value of the least word is no positive number in two's complement. -/
example : Word.signMagnitude (BitVec.intMin 256) = (true, BitVec.intMin 256) := by decide

end EvmLedger
