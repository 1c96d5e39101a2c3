/-
# EvmLedger.Proofs.Word.Bytes -- words and addresses as byte strings

A word is what its bytes are worth, so it survives being written and read whether
or not the zeros in front are written (`ofBytes_toMinimalBytes`), and a byte
string of at most 32 bytes survives being read and written but for those zeros
(`toMinimalBytes_eq_dropZeros`).  An address is written with all of its twenty bytes,
so there nothing is lost in either direction.  So a value on the wire tells which
word or address it was made from.
-/
import EvmLedger.Hash
import EvmLedger.Proofs.Bytes
import EvmLedger.Rlp.Item
import Mathlib.Tactic.NormNum

namespace EvmLedger

set_option autoImplicit false

namespace Word

theorem pow_bytes : 256 ^ 32 = 2 ^ 256 := by norm_num

theorem toNat_ofBytes {bytes : Bytes} (fits : bytes.length ≤ 32) :
    (ofBytes bytes).toNat = bytes.toNat := by
  have small : bytes.toNat < 2 ^ 256 := by
    calc bytes.toNat < 256 ^ bytes.length := Bytes.toNat_lt bytes
      _ ≤ 256 ^ 32 := Nat.pow_le_pow_right (by decide) fits
      _ = 2 ^ 256 := pow_bytes
  simp only [ofBytes, BitVec.toNat_ofNat]
  exact Nat.mod_eq_of_lt small

theorem toNat_toBytes (w : Word) : (toBytes w).toNat = w.toNat := by
  simp only [toBytes, Bytes.toNat_ofNat, pow_bytes]
  exact Nat.mod_eq_of_lt w.isLt

theorem toBytes_injective : Function.Injective toBytes := by
  intro w w' same
  apply BitVec.eq_of_toNat_eq
  rw [← toNat_toBytes w, same, toNat_toBytes]

theorem ofBytesTruncating_toBytes (w : Word) : ofBytesTruncating (toBytes w) = w := by
  have whole : (toBytes w).length = 32 := Bytes.ofNat_length _ _
  apply BitVec.eq_of_toNat_eq
  rw [ofBytesTruncating, Bytes.takeLast_of_length whole, toNat_ofBytes whole.le, toNat_toBytes]

theorem toNat_toMinimalBytes (w : Word) : (toMinimalBytes w).toNat = w.toNat := by
  rw [toMinimalBytes, Bytes.toNat_dropZeros, toNat_toBytes]

theorem length_toMinimalBytes_le (w : Word) : (toMinimalBytes w).length ≤ 32 := by
  have shorter := (Bytes.dropZeros_suffix (toBytes w)).length_le
  rwa [toBytes, Bytes.ofNat_length] at shorter

/-- Without zeros in front a word takes as few bytes as it can. -/
theorem length_toMinimalBytes_le_iff (w : Word) (count : Nat) :
    (toMinimalBytes w).length ≤ count ↔ w.toNat < 256 ^ count := by
  rw [toMinimalBytes, Bytes.length_dropZeros_le_iff, toNat_toBytes]

theorem ofBytes_toMinimalBytes (w : Word) : ofBytes (toMinimalBytes w) = w := by
  apply BitVec.eq_of_toNat_eq
  rw [toNat_ofBytes (length_toMinimalBytes_le w), toNat_toMinimalBytes]

/-- Written without zeros in front, a word is what is left of any bytes that it was read from. -/
theorem toMinimalBytes_eq_dropZeros {w : Word} {bytes : Bytes} (fits : bytes.length ≤ 32)
    (worth : bytes.toNat = w.toNat) : toMinimalBytes w = bytes.dropZeros := by
  rw [toMinimalBytes, toBytes, ← worth, Bytes.ofNat_toNat_of_le fits, Bytes.dropZeros_padLeft]

theorem toMinimalBytes_injective : Function.Injective toMinimalBytes := by
  intro w w' same
  rw [← ofBytes_toMinimalBytes w, same, ofBytes_toMinimalBytes]

end Word

namespace Address

theorem pow_bytes : 256 ^ 20 = 2 ^ 160 := by norm_num

@[simp] theorem length_toBytes (a : Address) : a.toBytes.length = 20 := Bytes.ofNat_length _ _

theorem toNat_toBytes (a : Address) : a.toBytes.toNat = a.bits.toNat := by
  rw [toBytes, Bytes.toNat_ofNat, pow_bytes]
  exact Nat.mod_eq_of_lt a.bits.isLt

theorem ofLowBytes_toBytes (a : Address) : ofLowBytes a.toBytes = a := by
  rw [ofLowBytes, Bytes.takeLast_of_length (length_toBytes a), toNat_toBytes, BitVec.ofNat_toNat,
    BitVec.setWidth_eq]

theorem toBytes_ofLowBytes {bytes : Bytes} (whole : bytes.length = 20) :
    (ofLowBytes bytes).toBytes = bytes := by
  have small : bytes.toNat < 2 ^ 160 := by
    have bounded := Bytes.toNat_lt bytes
    rwa [whole, pow_bytes] at bounded
  have value : (ofLowBytes bytes).bits.toNat = bytes.toNat := by
    simp only [ofLowBytes, Bytes.takeLast_of_length whole, BitVec.toNat_ofNat]
    exact Nat.mod_eq_of_lt small
  have written := Bytes.ofNat_toNat bytes
  rw [whole] at written
  rw [toBytes, value, written]

theorem toBytes_injective : Function.Injective toBytes := by
  intro a b same
  rw [← ofLowBytes_toBytes a, same, ofLowBytes_toBytes]

theorem ofWord_toWord (a : Address) : ofWord a.toWord = a := by
  rw [ofWord, toWord, BitVec.setWidth_setWidth_of_le _ (by decide), BitVec.setWidth_eq]

theorem toWord_injective : Function.Injective toWord :=
  Function.LeftInverse.injective ofWord_toWord

end Address

theorem Hash.toBytes_injective : Function.Injective Hash.toBytes := by
  rintro ⟨bits⟩ ⟨bits'⟩ same
  exact congrArg Hash.mk (Word.toBytes_injective same)

namespace Rlp.Item

theorem ofWord_inj {w w' : Word} : ofWord w = ofWord w' ↔ w = w' := by
  rw [ofWord, ofWord, string.injEq]
  exact Word.toMinimalBytes_injective.eq_iff

theorem ofAddress_inj {a b : Address} : ofAddress a = ofAddress b ↔ a = b := by
  rw [ofAddress, ofAddress, string.injEq]
  exact Address.toBytes_injective.eq_iff

theorem ofAddress_ne_empty (a : Address) : ofAddress a ≠ empty := by
  intro same
  rw [ofAddress, empty, string.injEq] at same
  have length := Address.length_toBytes a
  rw [same] at length
  exact absurd length (by decide)

end Rlp.Item

end EvmLedger
