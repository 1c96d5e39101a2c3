/-
# EvmLedger.Proofs.Bytes -- byte strings as numbers in base 256

A byte string of a given length is one number below a power of 256, and each such
number is one byte string: `toNat_ofNat` and `ofNat_toNat` are the two directions,
`toNat_lt` is the bound.

Zero bytes in front carry no value (`toNat_padLeft`, `toNat_dropZeros`).  Without
them a byte string is as short as a byte string of its value can be
(`length_dropZeros_le_iff`).  Bytes cut off in front take off whole multiples of a
power of 256 (`toNat_takeLast`).

Behind its end a byte string can be read as if it went on with zeros
(`window_eq_map`).
-/
import EvmLedger.Bytes
import Mathlib.Algebra.BigOperators.Ring.Finset
import Mathlib.Data.List.GetD
import Mathlib.Data.List.Induction
import Mathlib.Data.Nat.Digits.Defs
import Mathlib.Tactic.Ring

namespace EvmLedger.Bytes

set_option autoImplicit false

/-! ## Single bytes -/

/-- A law of bytes may be tried on all of them. -/
theorem forall_byte {P : UInt8 → Prop} (every : ∀ n < 256, P (UInt8.ofNat n)) (byte : UInt8) :
    P byte := by
  have known := every byte.toNat byte.toNat_lt
  rwa [UInt8.ofNat_toNat] at known

/-! ## Reading -/

theorem foldl_toNat (bytes : Bytes) (value : Nat) :
    bytes.foldl (fun value byte => value * 256 + byte.toNat) value =
      value * 256 ^ bytes.length + toNat bytes := by
  unfold toNat
  induction bytes generalizing value with
  | nil => simp
  | cons byte rest ih =>
      rw [List.foldl_cons, List.foldl_cons, ih, ih (0 * 256 + byte.toNat), List.length_cons,
        Nat.pow_succ]
      ring

theorem toNat_append (front rest : Bytes) :
    toNat (front ++ rest) = toNat front * 256 ^ rest.length + toNat rest := by
  unfold toNat
  rw [List.foldl_append]
  exact foldl_toNat rest _

theorem toNat_cons (byte : UInt8) (rest : Bytes) :
    toNat (byte :: rest) = byte.toNat * 256 ^ rest.length + toNat rest := by
  have parts := toNat_append [byte] rest
  simpa [toNat] using parts

theorem toNat_snoc (front : Bytes) (byte : UInt8) :
    toNat (front ++ [byte]) = toNat front * 256 + byte.toNat := by
  rw [toNat_append]
  simp [toNat]

theorem toNat_lt (bytes : Bytes) : toNat bytes < 256 ^ bytes.length := by
  induction bytes with
  | nil => exact Nat.one_pos
  | cons byte rest ih =>
      have digit : byte.toNat < 256 := byte.toNat_lt
      calc toNat (byte :: rest)
        _ = byte.toNat * 256 ^ rest.length + toNat rest := toNat_cons byte rest
        _ < byte.toNat * 256 ^ rest.length + 256 ^ rest.length := Nat.add_lt_add_left ih _
        _ = (byte.toNat + 1) * 256 ^ rest.length := by ring
        _ ≤ 256 * 256 ^ rest.length := Nat.mul_le_mul_right _ digit
        _ = 256 ^ (byte :: rest).length := by rw [List.length_cons, Nat.pow_succ']

theorem toNat_eq_ofDigits (bytes : Bytes) :
    toNat bytes = Nat.ofDigits 256 (bytes.reverse.map UInt8.toNat) := by
  induction bytes using List.reverseRecOn with
  | nil => rfl
  | append_singleton front byte ih =>
      rw [toNat_snoc, ih, List.reverse_append, List.reverse_singleton, List.singleton_append,
        List.map_cons, Nat.ofDigits_cons]
      ring

/-- The digits of a number, the one of the greatest place first. -/
theorem toNat_map_range (size : Nat) (byte : Nat → UInt8) :
    toNat ((List.range size).map byte) =
      ∑ i ∈ Finset.range size, (byte i).toNat * 256 ^ (size - 1 - i) := by
  induction size with
  | zero => rfl
  | succ size ih =>
      have shifted : ∀ i ∈ Finset.range size,
          (byte i).toNat * 256 ^ (size - 1 - i) * 256 =
            (byte i).toNat * 256 ^ (size + 1 - 1 - i) := by
        intro i inside
        have before : i < size := Finset.mem_range.1 inside
        have places : size + 1 - 1 - i = (size - 1 - i) + 1 := by omega
        rw [places, Nat.pow_succ, Nat.mul_assoc]
      rw [List.range_succ, List.map_append, List.map_singleton, toNat_snoc, ih, Finset.sum_mul,
        Finset.sum_congr rfl shifted, Finset.sum_range_succ]
      simp

/-! ## Writing -/

theorem ofNat_succ (width n : Nat) :
    ofNat (width + 1) n = ofNat width (n / 256) ++ [UInt8.ofNat n] := by
  simp [ofNat, digits]

theorem toNat_ofNat (width n : Nat) : toNat (ofNat width n) = n % 256 ^ width := by
  induction width generalizing n with
  | zero => simp [ofNat, digits, toNat, Nat.mod_one]
  | succ width ih =>
      rw [ofNat_succ, toNat_snoc, ih, Nat.pow_succ', Nat.mod_mul, UInt8.toNat_ofNat']
      ring

theorem ofNat_toNat (bytes : Bytes) : ofNat bytes.length (toNat bytes) = bytes := by
  induction bytes using List.reverseRecOn with
  | nil => rfl
  | append_singleton front byte ih =>
      have digit : byte.toNat < 256 := byte.toNat_lt
      have high : (toNat front * 256 + byte.toNat) / 256 = toNat front := by omega
      have low : UInt8.ofNat (toNat front * 256 + byte.toNat) = byte := by
        refine UInt8.toNat_inj.1 ?_
        rw [UInt8.toNat_ofNat']
        omega
      rw [List.length_append, List.length_singleton, toNat_snoc, ofNat_succ, high, low, ih]

theorem getD_ofNat {width i : Nat} (n : Nat) (inside : i < width) :
    (ofNat width n).getD i 0 = UInt8.ofNat (n / 256 ^ (width - 1 - i)) := by
  induction width generalizing n with
  | zero => omega
  | succ width ih =>
      rw [ofNat_succ, List.getD_eq_getElem?_getD, List.getElem?_append, ofNat_length]
      by_cases before : i < width
      · have places : width + 1 - 1 - i = (width - 1 - i) + 1 := by omega
        rw [if_pos before, ← List.getD_eq_getElem?_getD, ih _ before, places, Nat.pow_succ',
          Nat.div_div_eq_div_mul]
      · have last : i = width := by omega
        subst last
        simp

/-! ## Zeros in front -/

theorem toNat_padLeft (width : Nat) (bytes : Bytes) :
    toNat (padLeft width bytes) = toNat bytes := by
  have zeros : ∀ count, toNat (List.replicate count 0) = 0 := by
    intro count
    induction count with
    | zero => rfl
    | succ count ih =>
        rw [List.replicate_succ, toNat_cons, ih]
        simp
  rw [padLeft, toNat_append, zeros, Nat.zero_mul, Nat.zero_add]

theorem ofNat_toNat_of_le {width : Nat} {bytes : Bytes} (fits : bytes.length ≤ width) :
    ofNat width (toNat bytes) = padLeft width bytes := by
  have whole : (padLeft width bytes).length = width := by
    simp only [padLeft, List.length_append, List.length_replicate]
    omega
  have read := ofNat_toNat (padLeft width bytes)
  rwa [whole, toNat_padLeft] at read

theorem dropZeros_padLeft (width : Nat) (bytes : Bytes) :
    dropZeros (padLeft width bytes) = dropZeros bytes := by
  unfold dropZeros padLeft
  induction width - bytes.length with
  | zero => rfl
  | succ count ih => rw [List.replicate_succ, List.cons_append, List.dropWhile_cons_of_pos rfl, ih]

theorem dropZeros_suffix (bytes : Bytes) : dropZeros bytes <:+ bytes :=
  List.dropWhile_suffix _

theorem toNat_dropZeros (bytes : Bytes) : toNat (dropZeros bytes) = toNat bytes := by
  unfold dropZeros
  induction bytes with
  | nil => rfl
  | cons byte rest ih =>
      by_cases zero : byte = 0
      · subst zero
        rw [List.dropWhile_cons_of_pos rfl, ih, toNat_cons]
        simp
      · rw [List.dropWhile_cons_of_neg (by simpa using zero)]

/-- The first byte of a number without zeros in front counts. -/
theorem pow_le_of_dropZeros {bytes : Bytes} {byte : UInt8} {rest : Bytes}
    (leads : dropZeros bytes = byte :: rest) : 256 ^ rest.length ≤ toNat bytes := by
  have nonzero : byte ≠ 0 := by
    have first := List.head?_dropWhile_not (fun byte : UInt8 => byte == 0) bytes
    rw [← dropZeros, leads, List.head?_cons] at first
    simpa using first
  have digit : 0 < byte.toNat :=
    Nat.pos_of_ne_zero fun zero => nonzero (UInt8.toNat_inj.1 zero)
  rw [← toNat_dropZeros, leads, toNat_cons]
  calc 256 ^ rest.length ≤ byte.toNat * 256 ^ rest.length := Nat.le_mul_of_pos_left _ digit
    _ ≤ _ := Nat.le_add_right _ _

/-- Without zeros in front a number takes as few bytes as it can. -/
theorem length_dropZeros_le_iff (bytes : Bytes) (count : Nat) :
    (dropZeros bytes).length ≤ count ↔ toNat bytes < 256 ^ count := by
  constructor
  · intro few
    calc toNat bytes = toNat (dropZeros bytes) := (toNat_dropZeros bytes).symm
      _ < 256 ^ (dropZeros bytes).length := toNat_lt _
      _ ≤ 256 ^ count := Nat.pow_le_pow_right (by decide) few
  · intro small
    cases leads : dropZeros bytes with
    | nil => exact Nat.zero_le _
    | cons byte rest =>
        have long := pow_le_of_dropZeros leads
        exact (Nat.pow_lt_pow_iff_right (by decide)).1 (Nat.lt_of_le_of_lt long small)

/-! ## The last bytes -/

theorem takeLast_of_length {width : Nat} {bytes : Bytes} (whole : bytes.length = width) :
    takeLast width bytes = bytes := by
  rw [takeLast, whole, Nat.sub_self, List.drop_zero]

theorem toNat_takeLast (width : Nat) (bytes : Bytes) :
    toNat (takeLast width bytes) = toNat bytes % 256 ^ width := by
  rcases Nat.le_total bytes.length width with short | long
  · have small : toNat bytes < 256 ^ width :=
      Nat.lt_of_lt_of_le (toNat_lt bytes) (Nat.pow_le_pow_right (by decide) short)
    rw [takeLast, Nat.sub_eq_zero_of_le short, List.drop_zero, Nat.mod_eq_of_lt small]
  · have whole : (takeLast width bytes).length = width := by
      simp only [takeLast, List.length_drop]
      omega
    have small := toNat_lt (takeLast width bytes)
    have parts := toNat_append (bytes.take (bytes.length - width)) (takeLast width bytes)
    rw [takeLast, List.take_append_drop, ← takeLast] at parts
    rw [whole] at parts small
    rw [parts, Nat.mul_add_mod_self_right, Nat.mod_eq_of_lt small]

/-! ## Zeros behind the end -/

theorem getD_window {bytes : Bytes} {offset size i : Nat} (inside : i < size) :
    (window bytes offset size).getD i 0 = bytes.getD (offset + i) 0 := by
  simp only [window, List.getD_eq_getElem?_getD, List.getElem?_append, List.getElem?_take,
    List.getElem?_drop, List.getElem?_replicate, List.length_take, List.length_drop]
  by_cases stored : offset + i < bytes.length
  · rw [if_pos (by omega), if_pos inside]
  · rw [if_neg (by omega), if_pos (by omega), List.getElem?_eq_none (by omega)]
    rfl

theorem window_eq_map (bytes : Bytes) (offset size : Nat) :
    window bytes offset size = (List.range size).map fun i => bytes.getD (offset + i) 0 := by
  refine List.ext_getElem (by simp) fun i inside _ => ?_
  rw [window_length] at inside
  rw [List.getElem_map, List.getElem_range, ← getD_window inside,
    List.getD_eq_getElem _ _ (by simpa using inside)]

/-! ## Text -/

theorem toList_loop (bytes : ByteArray) (i : Nat) (front : List UInt8) :
    ByteArray.toList.loop bytes i front = front.reverse ++ bytes.data.toList.drop i := by
  fun_induction ByteArray.toList.loop bytes i front with
  | case1 i front more ih =>
      have here : bytes.data.toList.drop i = bytes.get! i :: bytes.data.toList.drop (i + 1) := by
        rw [List.drop_eq_getElem_cons more]
        congr 1
        exact (getElem!_pos bytes.data i more).symm
      rw [ih, here, List.reverse_cons, List.append_assoc, List.singleton_append]
  | case2 i front no_more =>
      rw [List.drop_eq_nil_of_le (Nat.not_lt.1 no_more), List.append_nil]

/-- The bytes of a text in order. -/
theorem toList_toUTF8 (text : String) : text.toUTF8.toList = text.toByteArray.data.toList :=
  toList_loop _ 0 []

theorem length_toUTF8 (text : String) : text.toUTF8.toList.length = text.utf8ByteSize := by
  rw [toList_toUTF8]
  rfl

theorem toUTF8_injective : Function.Injective fun text : String => text.toUTF8.toList := by
  intro text other same
  dsimp only at same
  rw [toList_toUTF8, toList_toUTF8] at same
  exact String.toByteArray_inj.1 (ByteArray.ext (Array.toList_inj.1 same))

end EvmLedger.Bytes
