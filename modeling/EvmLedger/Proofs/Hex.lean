/-
# EvmLedger.Proofs.Hex -- which texts are read as which bytes

A text that spells bytes holds two digits for each of them, in either case, after `0x`,
`0X` or nothing, and between blanks (`Spells`).  `decode` reads these texts and no
others (`decode_eq_ok_iff`).  So whatever is written is read back, with and without the
mark, and a text is refused if what is left of it without blanks and mark is not made of
evenly many digits (`decode_refused_iff`).

The reader works on UTF-8 bytes and the statements are about characters.  In between
stand the halves of the bytes (`halves`): the bytes of a text are read as halves of
bytes if and only if its characters are, in lower case, the digits of these halves
(`map_digitValue?_utf8`).
-/
import EvmLedger.Hex
import EvmLedger.Proofs.Bytes
import EvmLedger.Proofs.Failure
import Mathlib.Data.List.TakeWhile

namespace EvmLedger

set_option autoImplicit false

namespace Text

/-! ## Blanks -/

/-- Only blanks are trimmed away. -/
theorem exists_trim (text : List Char) :
    ∃ before after, text = before ++ trim text ++ after ∧
      (∀ c ∈ before, isBlank c) ∧ ∀ c ∈ after, isBlank c := by
  have front := List.takeWhile_append_dropWhile (p := isBlank) (l := text)
  have back := List.takeWhile_append_dropWhile (p := isBlank) (l := (text.dropWhile isBlank).reverse)
  refine ⟨text.takeWhile isBlank, ((text.dropWhile isBlank).reverse.takeWhile isBlank).reverse,
    ?_, ?_, ?_⟩
  · rw [trim, List.append_assoc, ← List.reverse_append, back, List.reverse_reverse, front]
  · intro c among
    exact List.mem_takeWhile_imp among
  · intro c among
    exact List.mem_takeWhile_imp (List.mem_reverse.1 among)

theorem dropWhile_solid {text : List Char} (solid : ∀ c ∈ text, isBlank c = false) :
    text.dropWhile isBlank = text := by
  cases text with
  | nil => rfl
  | cons first rest => exact List.dropWhile_cons_of_neg (by simp [solid])

/-- All blanks at either end are trimmed away. -/
theorem trim_append {before text after : List Char} (blank_before : ∀ c ∈ before, isBlank c)
    (solid : ∀ c ∈ text, isBlank c = false) (blank_after : ∀ c ∈ after, isBlank c) :
    trim (before ++ text ++ after) = text := by
  rw [trim, List.append_assoc, List.dropWhile_append_of_pos blank_before]
  -- with nothing in between, the blanks behind are trimmed from the front as well
  cases text with
  | nil =>
      rw [List.nil_append, List.dropWhile_eq_nil_iff.2 blank_after]
      rfl
  | cons first rest =>
      rw [List.cons_append, List.dropWhile_cons_of_neg (by simp [solid]), ← List.cons_append,
        List.reverse_append, List.dropWhile_append_of_pos (by simpa using blank_after),
        dropWhile_solid fun c among => solid c (List.mem_reverse.1 among), List.reverse_reverse]

end Text

namespace Hex

/-! ## Digits -/

/-- The digits, in either case. -/
def alphabet : List Char := "0123456789abcdefABCDEF".toList

theorem digitChar_ascii : ∀ value < 16, (digitChar value).toNat < 128 := by decide

theorem toLower_digitChar : ∀ value < 16, (digitChar value).toLower = digitChar value := by decide

theorem alphabet_ascii : ∀ c ∈ alphabet, c.toNat < 128 := by
  have all : alphabet.all (fun c => decide (c.toNat < 128)) = true := by decide
  simpa using all

theorem alphabet_solid : ∀ c ∈ alphabet, Text.isBlank c = false := by
  have all : alphabet.all (fun c => !Text.isBlank c) = true := by decide
  simpa using all

theorem forall_ascii {P : Char → Prop} (every : ∀ n < 128, P (Char.ofNat n)) (c : Char)
    (ascii : c.toNat < 128) : P c := by
  have known := every c.toNat ascii
  rwa [Char.ofNat_toNat] at known

theorem digitValue?_large : ∀ byte : UInt8, 128 ≤ byte.toNat → digitValue? byte = none :=
  Bytes.forall_byte (by decide +kernel)

theorem digitValue?_lt : ∀ byte : UInt8, ∀ value ∈ digitValue? byte, value.toNat < 16 :=
  Bytes.forall_byte (by decide +kernel)

theorem digitValue?_ascii : ∀ c : Char, c.toNat < 128 → ∀ value < 16,
    (digitValue? (UInt8.ofNat c.toNat) = some (UInt8.ofNat value) ↔
      c.toLower = digitChar value) :=
  forall_ascii (by decide +kernel)

theorem mem_alphabet_ascii : ∀ c : Char, c.toNat < 128 →
    (c ∈ alphabet ↔ ∃ value < 16, c.toLower = digitChar value) :=
  forall_ascii (by decide +kernel)

theorem toLower_of_large {c : Char} (large : 128 ≤ c.toNat) : c.toLower = c := by
  unfold Char.toLower
  rw [dif_neg]
  rintro ⟨_, upper⟩
  have bounded : c.toNat ≤ 90 := upper
  omega

theorem ascii_of_toLower {c : Char} {value : Nat} (small : value < 16)
    (lower : c.toLower = digitChar value) : c.toNat < 128 := by
  by_contra large
  have ascii := digitChar_ascii value small
  rw [← lower, toLower_of_large (Nat.not_lt.1 large)] at ascii
  exact large ascii

theorem mem_alphabet_iff {c : Char} :
    c ∈ alphabet ↔ ∃ value < 16, c.toLower = digitChar value := by
  by_cases ascii : c.toNat < 128
  · exact mem_alphabet_ascii c ascii
  · refine iff_of_false (fun among => ascii (alphabet_ascii c among)) ?_
    rintro ⟨value, small, lower⟩
    exact ascii (ascii_of_toLower small lower)

/-! ## Halves of bytes -/

/-- The halves of bytes, high ones first. -/
def halves (bytes : Bytes) : List UInt8 :=
  bytes.flatMap fun byte => [byte / 16, byte % 16]

theorem halves_cons (byte : UInt8) (rest : Bytes) :
    halves (byte :: rest) = byte / 16 :: byte % 16 :: halves rest := rfl

theorem encodeChars_cons (byte : UInt8) (rest : Bytes) :
    encodeChars (byte :: rest) =
      digitChar (byte.toNat / 16) :: digitChar (byte.toNat % 16) :: encodeChars rest := rfl

theorem encodeChars_eq (bytes : Bytes) :
    encodeChars bytes = (halves bytes).map fun half => digitChar half.toNat := by
  simp [encodeChars, halves, List.map_flatMap, UInt8.toNat_div, UInt8.toNat_mod]

theorem length_encodeChars (bytes : Bytes) : (encodeChars bytes).length = 2 * bytes.length := by
  induction bytes with
  | nil => rfl
  | cons byte rest ih => simp [encodeChars_cons, ih, Nat.mul_add]

theorem length_halves (bytes : Bytes) : (halves bytes).length = 2 * bytes.length := by
  rw [← length_encodeChars, encodeChars_eq, List.length_map]

theorem lt_of_mem_halves {bytes : Bytes} {half : UInt8} (among : half ∈ halves bytes) :
    half.toNat < 16 := by
  obtain ⟨byte, _, among⟩ := List.mem_flatMap.1 among
  have bounded := byte.toNat_lt
  simp only [List.mem_cons, List.not_mem_nil, or_false] at among
  rcases among with rfl | rfl
  · rw [UInt8.toNat_div]
    exact Nat.div_lt_of_lt_mul bounded
  · rw [UInt8.toNat_mod]
    exact Nat.mod_lt _ (by decide)

theorem map_toLower_encodeChars (bytes : Bytes) :
    (encodeChars bytes).map Char.toLower = encodeChars bytes := by
  rw [encodeChars_eq, List.map_map]
  refine List.map_congr_left fun half among => ?_
  exact toLower_digitChar _ (lt_of_mem_halves among)

theorem halves_together (byte : UInt8) : byte / 16 * 16 + byte % 16 = byte := by
  apply UInt8.toNat_inj.1
  have bounded := byte.toNat_lt
  simp only [UInt8.toNat_add, UInt8.toNat_mul, UInt8.toNat_div, UInt8.toNat_mod, UInt8.reduceToNat]
  omega

theorem halves_apart {high low : UInt8} (high_small : high.toNat < 16) (low_small : low.toNat < 16) :
    (high * 16 + low) / 16 = high ∧ (high * 16 + low) % 16 = low := by
  constructor <;> apply UInt8.toNat_inj.1 <;>
    simp only [UInt8.toNat_add, UInt8.toNat_mul, UInt8.toNat_div, UInt8.toNat_mod,
      UInt8.reduceToNat] <;>
    omega

/-! ## Pairs of digits -/

theorem readDigit_eq_ok_iff {byte value : UInt8} {position : Nat} :
    readDigit byte position = .ok value ↔ digitValue? byte = some value := by
  unfold readDigit
  cases digitValue? byte with
  | none => simp
  | some found => simp

theorem readPairs_cons {high low h l : UInt8} (done : Bytes) (position : Nat) (rest : Bytes)
    (high_read : digitValue? high = some h) (low_read : digitValue? low = some l) :
    readPairs done position (high :: low :: rest) =
      readPairs ((h * 16 + l) :: done) (position + 2) rest := by
  rw [readPairs, readDigit_eq_ok_iff.2 high_read, readDigit_eq_ok_iff.2 low_read]
  rfl

theorem readPairs_of_halves {bytes digits : Bytes} (done : Bytes) (position : Nat)
    (stand : digits.map digitValue? = (halves bytes).map some) :
    readPairs done position digits = .ok (done.reverse ++ bytes) := by
  induction bytes generalizing digits done position with
  | nil =>
      obtain rfl : digits = [] := by simpa [halves] using stand
      simp [readPairs]
  | cons byte rest ih =>
      rw [halves_cons] at stand
      match digits, stand with
      | [_], stand => simp at stand
      | high :: low :: others, stand =>
          simp only [List.map_cons, List.cons.injEq] at stand
          rw [readPairs_cons done position others stand.1 stand.2.1, ih _ _ stand.2.2,
            halves_together]
          simp

theorem halves_of_readPairs {done digits bytes : Bytes} {position : Nat}
    (read : readPairs done position digits = .ok bytes) :
    ∃ rest, bytes = done.reverse ++ rest ∧ digits.map digitValue? = (halves rest).map some := by
  induction done, position, digits using readPairs.induct with
  | case1 done position high low others ih =>
      rw [readPairs] at read
      obtain ⟨h, high_read, read⟩ := bind_eq_ok read
      obtain ⟨l, low_read, read⟩ := bind_eq_ok read
      rw [readDigit_eq_ok_iff] at high_read low_read
      obtain ⟨rest, rfl, stand⟩ := ih h l read
      obtain ⟨first, second⟩ := halves_apart (digitValue?_lt _ _ high_read) (digitValue?_lt _ _ low_read)
      refine ⟨(h * 16 + l) :: rest, by simp, ?_⟩
      rw [halves_cons, first, second]
      simp [high_read, low_read, stand]
  | case2 done position byte => cases read
  | case3 done position =>
      cases read
      exact ⟨[], by simp, rfl⟩

theorem decodeDigits_eq_ok_iff {digits bytes : Bytes} :
    decodeDigits digits = .ok bytes ↔ digits.map digitValue? = (halves bytes).map some := by
  constructor
  · intro read
    unfold decodeDigits at read
    split at read
    · cases read
    · obtain ⟨rest, rfl, stand⟩ := halves_of_readPairs read
      exact stand
  · intro stand
    have even : digits.length = 2 * bytes.length := by
      simpa [length_halves] using congrArg List.length stand
    rw [decodeDigits, if_neg (by omega), readPairs_of_halves [] 0 stand]
    rfl

/-! ## Characters -/

theorem utf8EncodeChar_ascii {c : Char} (ascii : c.toNat < 128) :
    String.utf8EncodeChar c = [UInt8.ofNat c.toNat] :=
  if_pos (Nat.le_of_lt_succ ascii)

/-- A character of several bytes is no digit, as its first byte is none. -/
theorem utf8EncodeChar_large {c : Char} (large : 128 ≤ c.toNat) :
    ∃ first rest, String.utf8EncodeChar c = first :: rest ∧ digitValue? first = none := by
  have value : c.val.toNat = c.toNat := rfl
  have leads : ∀ n, 128 ≤ n % 256 → digitValue? (UInt8.ofNat n) = none := by
    intro n high
    apply digitValue?_large
    rwa [UInt8.toNat_ofNat']
  simp only [String.utf8EncodeChar, value]
  rw [if_neg (by omega)]
  split
  · exact ⟨_, _, rfl, leads _ (by omega)⟩
  · split
    · exact ⟨_, _, rfl, leads _ (by omega)⟩
    · exact ⟨_, _, rfl, leads _ (by omega)⟩

theorem digitValue?_eq_some_iff {c : Char} {value : UInt8} (ascii : c.toNat < 128)
    (small : value.toNat < 16) :
    digitValue? (UInt8.ofNat c.toNat) = some value ↔ c.toLower = digitChar value.toNat := by
  have known := digitValue?_ascii c ascii value.toNat small
  rwa [UInt8.ofNat_toNat] at known

theorem map_digitValue?_utf8 (text : List Char) {values : List UInt8}
    (small : ∀ value ∈ values, value.toNat < 16) :
    (utf8 text).map digitValue? = values.map some ↔
      text.map Char.toLower = values.map fun value => digitChar value.toNat := by
  -- a character that is a digit is one byte, and any other fails on its first byte on either side
  induction text generalizing values with
  | nil => cases values <;> simp [utf8]
  | cons c rest ih =>
      rw [utf8, List.flatMap_cons, ← utf8]
      by_cases ascii : c.toNat < 128
      · rw [utf8EncodeChar_ascii ascii, List.singleton_append]
        cases values with
        | nil => simp
        | cons value others =>
            rw [List.forall_mem_cons] at small
            simp only [List.map_cons, List.cons.injEq, digitValue?_eq_some_iff ascii small.1,
              ih small.2]
      · obtain ⟨first, others, written, no_digit⟩ := utf8EncodeChar_large (Nat.not_lt.1 ascii)
        rw [written]
        cases values with
        | nil => simp
        | cons value _ =>
            have apart : c.toLower ≠ digitChar value.toNat := fun lower =>
              ascii (ascii_of_toLower (small value List.mem_cons_self) lower)
            simp [no_digit, apart]

theorem decodeDigits_utf8_eq_ok_iff {text : List Char} {bytes : Bytes} :
    decodeDigits (utf8 text) = .ok bytes ↔ text.map Char.toLower = encodeChars bytes := by
  rw [decodeDigits_eq_ok_iff, encodeChars_eq]
  exact map_digitValue?_utf8 text fun half among => lt_of_mem_halves among

theorem mem_alphabet_of_digits {digits : List Char} {bytes : Bytes}
    (written : digits.map Char.toLower = encodeChars bytes) : ∀ c ∈ digits, c ∈ alphabet := by
  intro c among
  have lower : c.toLower ∈ encodeChars bytes := written ▸ List.mem_map_of_mem among
  rw [encodeChars_eq, List.mem_map] at lower
  obtain ⟨half, half_among, same⟩ := lower
  exact mem_alphabet_iff.2 ⟨half.toNat, lt_of_mem_halves half_among, same.symm⟩

theorem exists_encodeChars_iff (text : List Char) :
    (∃ bytes, text.map Char.toLower = encodeChars bytes) ↔
      text.length % 2 = 0 ∧ ∀ c ∈ text, c ∈ alphabet := by
  constructor
  · rintro ⟨bytes, written⟩
    have count := congrArg List.length written
    rw [List.length_map, length_encodeChars] at count
    exact ⟨by omega, mem_alphabet_of_digits written⟩
  · rintro ⟨even, all⟩
    induction text using List.twoStepInduction with
    | nil => exact ⟨[], rfl⟩
    | singleton c => simp at even
    | cons_cons high low rest ih _ =>
        simp only [List.forall_mem_cons] at all
        obtain ⟨h, h_small, h_lower⟩ := mem_alphabet_iff.1 all.1
        obtain ⟨l, l_small, l_lower⟩ := mem_alphabet_iff.1 all.2.1
        obtain ⟨bytes, written⟩ := ih (by simpa [Nat.add_assoc] using even) all.2.2
        have value : (UInt8.ofNat (h * 16 + l)).toNat = h * 16 + l := by
          rw [UInt8.toNat_ofNat']
          omega
        have first : (h * 16 + l) / 16 = h := by omega
        have second : (h * 16 + l) % 16 = l := by omega
        refine ⟨UInt8.ofNat (h * 16 + l) :: bytes, ?_⟩
        rw [encodeChars_cons, value, first, second, List.map_cons, List.map_cons, h_lower, l_lower,
          written]

/-! ## Texts -/

/-- The marks that may stand in front of digits. -/
def marks : List (List Char) := [[], ['0', 'x'], ['0', 'X']]

/-- A text that spells bytes. -/
inductive Spells : List Char → Bytes → Prop where
  | intro {before mark digits after : List Char} {bytes : Bytes}
      (blank_before : ∀ c ∈ before, Text.isBlank c) (marked : mark ∈ marks)
      (written : digits.map Char.toLower = encodeChars bytes)
      (blank_after : ∀ c ∈ after, Text.isBlank c) :
      Spells (before ++ (mark ++ digits) ++ after) bytes

theorem marks_solid : ∀ mark ∈ marks, ∀ c ∈ mark, Text.isBlank c = false := by
  have all : marks.all (fun mark => mark.all fun c => !Text.isBlank c) = true := by decide
  simpa using all

theorem exists_stripRadix (text : List Char) : ∃ mark ∈ marks, text = mark ++ stripRadix text := by
  unfold stripRadix
  split
  · exact ⟨['0', 'x'], by simp [marks], rfl⟩
  · exact ⟨['0', 'X'], by simp [marks], rfl⟩
  · exact ⟨[], by simp [marks], rfl⟩

/-- No two digits are taken for a mark. -/
theorem stripRadix_digits {digits : List Char} (all : ∀ c ∈ digits, c ∈ alphabet) :
    stripRadix digits = digits := by
  unfold stripRadix
  split
  · exact absurd (all 'x' (by simp)) (by decide)
  · exact absurd (all 'X' (by simp)) (by decide)
  · rfl

theorem stripRadix_append {mark digits : List Char} (marked : mark ∈ marks)
    (all : ∀ c ∈ digits, c ∈ alphabet) : stripRadix (mark ++ digits) = digits := by
  simp only [marks, List.mem_cons, List.not_mem_nil, or_false] at marked
  rcases marked with rfl | rfl | rfl
  · exact stripRadix_digits all
  · rfl
  · rfl

theorem decode_eq_ok_iff_stripped {text : String} {bytes : Bytes} :
    decode text = .ok bytes ↔
      (stripRadix (Text.trim text.toList)).map Char.toLower = encodeChars bytes :=
  decodeDigits_utf8_eq_ok_iff

theorem decode_eq_ok_iff {text : String} {bytes : Bytes} :
    decode text = .ok bytes ↔ Spells text.toList bytes := by
  rw [decode_eq_ok_iff_stripped]
  constructor
  · intro written
    obtain ⟨before, after, whole, blank_before, blank_after⟩ := Text.exists_trim text.toList
    obtain ⟨mark, marked, rest⟩ := exists_stripRadix (Text.trim text.toList)
    rw [rest] at whole
    rw [whole]
    exact .intro blank_before marked written blank_after
  · generalize text.toList = chars
    rintro ⟨blank_before, marked, written, blank_after⟩
    have all := mem_alphabet_of_digits written
    have solid := List.forall_mem_append.2
      ⟨marks_solid _ marked, fun c among => alphabet_solid c (all c among)⟩
    rw [Text.trim_append blank_before solid blank_after, stripRadix_append marked all, written]

theorem decode_refused_iff (text : String) :
    (∃ cause, decode text = .error cause) ↔
      (stripRadix (Text.trim text.toList)).length % 2 = 1 ∨
        ∃ c ∈ stripRadix (Text.trim text.toList), c ∉ alphabet := by
  have accepted := exists_encodeChars_iff (stripRadix (Text.trim text.toList))
  simp only [← decode_eq_ok_iff_stripped] at accepted
  rw [exists_error_iff, accepted, not_and_or, Nat.mod_two_not_eq_zero]
  simp

theorem decode_plain (bytes : Bytes) : decode (encode bytes) = .ok bytes := by
  have spells : Spells ([] ++ ([] ++ encodeChars bytes) ++ []) bytes :=
    .intro nofun (by simp [marks]) (map_toLower_encodeChars bytes) nofun
  rw [decode_eq_ok_iff, encode, String.toList_ofList]
  simpa using spells

theorem decode_prefixed (bytes : Bytes) : decode (encodePrefixed bytes) = .ok bytes := by
  have spells : Spells ([] ++ (['0', 'x'] ++ encodeChars bytes) ++ []) bytes :=
    .intro nofun (by simp [marks]) (map_toLower_encodeChars bytes) nofun
  rw [decode_eq_ok_iff, encodePrefixed, String.toList_ofList]
  simpa using spells

end Hex

end EvmLedger
