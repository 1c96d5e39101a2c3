/-
# EvmLedger.Proofs.Rlp.Reader -- the reader follows the grammar in both directions

It reads every derivation, with the exact number of bytes, unless lists are nested
too deep in it: that is what it says then, and it says nothing else
(`readItem_derived`).  And what it reads is derivable (`derives_of_readItem`).

The loop over a payload counts down from the number of its bytes.  Every item takes
a byte, so the count is never used up: an item is missing only where there are no
bytes at all (`readItem_ne_empty`, `decode_eq_empty_iff`).
-/
import EvmLedger.Rlp.Decode
import EvmLedger.Proofs.Failure
import EvmLedger.Proofs.Rlp.Grammar

namespace EvmLedger.Rlp

set_option autoImplicit false

/-! ## Slices -/

theorem slice_append {front part : Bytes} (fits : front.length + part.length < Quantity.bound)
    (rest : Bytes) (offset : Nat) :
    slice (front ++ part ++ rest) front.length part.length offset = .ok part := by
  unfold slice
  rw [if_neg (Nat.not_le.2 fits), List.append_assoc, List.drop_left, List.take_left, if_pos rfl]

theorem slice_eq_ok {data part : Bytes} {start length offset : Nat}
    (read : slice data start length offset = .ok part) :
    part.length = length ∧ ∃ rest, data.drop start = part ++ rest := by
  unfold slice at read
  split at read
  · cases read
  · dsimp only at read
    split at read
    · rename_i whole
      cases read
      exact ⟨whole, data.drop start |>.drop length, (List.take_append_drop _ _).symm⟩
    · cases read

/-- A range that is read ends at an offset. -/
theorem slice_lt_bound {data part : Bytes} {start length offset : Nat}
    (read : slice data start length offset = .ok part) : start + length < Quantity.bound := by
  unfold slice at read
  split at read
  · cases read
  · rename_i fits
    exact Nat.lt_of_not_le fits

theorem slice_ne_empty (data : Bytes) (start length offset : Nat) :
    slice data start length offset ≠ .error .empty := by
  unfold slice
  dsimp only
  split
  · exact nofun
  · split
    · exact nofun
    · exact nofun

/-! ## Heads -/

/-- The number of bytes that announce the length of a payload, and that length, as the first byte
tells them. -/
def readHead (base offset : Nat) (first : UInt8) (rest : Bytes) : Except Error (Nat × Nat) :=
  if first.toNat ≤ base + 55 then .ok (1, first.toNat - base)
  else do
    let length ← readLength (first :: rest) (first.toNat - (base + 55)) offset
    .ok (1 + (first.toNat - (base + 55)), length)

theorem readHead_short {base offset : Nat} {first : UInt8} {rest : Bytes}
    (short : first.toNat ≤ base + 55) :
    readHead base offset first rest = .ok (1, first.toNat - base) :=
  if_pos short

theorem readHead_long {base offset : Nat} {first : UInt8} {rest : Bytes}
    (long : base + 55 < first.toNat) :
    readHead base offset first rest = (do
      let length ← readLength (first :: rest) (first.toNat - (base + 55)) offset
      .ok (1 + (first.toNat - (base + 55)), length)) :=
  if_neg (Nat.not_le.2 long)

theorem readHead_announced {base length : Nat} {first : UInt8} {digits : Bytes}
    (announced : Announces base (first :: digits) length) (offset : Nat) (rest : Bytes) :
    readHead base offset first (digits ++ rest) = .ok (digits.length + 1, length) := by
  rw [Nat.add_comm]
  unfold readHead
  cases announced with
  | short limited told =>
      rw [if_pos (by omega), told, Nat.add_sub_cancel_left]
      rfl
  | long present limited told =>
      have fits : [first].length + digits.length < Quantity.bound :=
        Nat.lt_of_le_of_lt (Nat.add_le_add_left limited 1) (by decide)
      have read : readLength (first :: (digits ++ rest)) digits.length offset = .ok digits.toNat :=
        congrArg (Except.map Bytes.toNat) (slice_append fits rest offset)
      rw [if_neg (by omega), told, Nat.add_sub_cancel_left, read]
      rfl

/-- A head that was read, with the payload after it, is one of the grammar. -/
theorem announces_of_readHead {base offset start length : Nat} {first : UInt8} {rest payload : Bytes}
    (above : base ≤ first.toNat) (below : first.toNat ≤ base + 63)
    (read : readHead base offset first rest = .ok (start, length))
    (taken : slice (first :: rest) start length offset = .ok payload) :
    ∃ head tail, first :: rest = head ++ payload ++ tail ∧ Announces base head payload.length ∧
      head.length = start ∧ payload.length = length := by
  unfold readHead at read
  split at read
  · rename_i limited
    cases read
    obtain ⟨whole, tail, rest_eq⟩ := slice_eq_ok taken
    refine ⟨[first], tail, ?_, .short (by omega) (by omega), rfl, whole⟩
    rw [List.append_assoc, ← rest_eq]
    rfl
  · rename_i extended
    -- the length bytes follow the first byte, and the payload follows them
    obtain ⟨value, told, same⟩ := bind_eq_ok read
    cases same
    obtain ⟨digits, sliced, rfl⟩ := map_eq_ok told
    obtain ⟨count, tail, rest_eq⟩ := slice_eq_ok sliced
    obtain ⟨whole, tail', tail_eq⟩ := slice_eq_ok taken
    have rest_eq : rest = digits ++ tail := rest_eq
    have tail_eq : tail = payload ++ tail' := by
      rw [← tail_eq, rest_eq, ← count, Nat.add_comm]
      exact (List.drop_left ..).symm
    refine ⟨first :: digits, tail', ?_, ?_, ?_, whole⟩
    · rw [rest_eq, tail_eq, List.append_assoc]
      rfl
    · rw [whole]
      exact .long (by omega) (by omega) (by omega)
    · rw [List.length_cons, count, Nat.add_comm]

theorem readHead_ne_empty (base offset : Nat) (first : UInt8) (rest : Bytes) :
    readHead base offset first rest ≠ .error .empty := by
  unfold readHead
  split
  · exact nofun
  · intro missing
    obtain missing | ⟨_, _, never⟩ := bind_eq_error missing
    · exact slice_ne_empty _ _ _ _ (map_eq_error missing)
    · cases never

/-! ## Heads with payloads -/

section Payload

variable {α : Type} {base offset : Nat} {first : UInt8} {rest head payload : Bytes}
  {next : Nat → Nat → Bytes → Except Error α}

/-- Reads a head and the payload that it announces, and goes on with the length of both and with
the payload. -/
def readPayload (base offset : Nat) (first : UInt8) (rest : Bytes)
    (next : Nat → Nat → Bytes → Except Error α) : Except Error α := do
  let (start, length) ← readHead base offset first rest
  let payload ← slice (first :: rest) start length offset
  next start length payload

theorem readPayload_announced {digits : Bytes}
    (announced : Announces base (first :: digits) payload.length)
    (fits : (first :: digits ++ payload).length < Quantity.bound) :
    readPayload base offset first (digits ++ (payload ++ rest)) next =
      next (first :: digits).length payload.length payload := by
  rw [List.length_append] at fits
  have taken := slice_append fits rest offset
  simp only [List.cons_append, List.length_cons, List.append_assoc] at taken ⊢
  unfold readPayload
  rw [readHead_announced announced]
  simp only [bind, Except.bind, taken]

theorem readPayload_eq_ok {result : α} (above : base ≤ first.toNat) (below : first.toNat ≤ base + 63)
    (read : readPayload base offset first rest next = .ok result) :
    ∃ head payload tail, first :: rest = head ++ payload ++ tail ∧
      Announces base head payload.length ∧ next head.length payload.length payload = .ok result := by
  obtain ⟨⟨start, length⟩, told, read⟩ := bind_eq_ok read
  obtain ⟨payload, taken, read⟩ := bind_eq_ok read
  obtain ⟨head, tail, split, announced, rfl, rfl⟩ := announces_of_readHead above below told taken
  exact ⟨head, payload, tail, split, announced, read⟩

theorem readPayload_lt_bound {result : α}
    (read : readPayload base offset first rest next = .ok result) :
    ∃ start length payload, start + length < Quantity.bound ∧
      next start length payload = .ok result := by
  obtain ⟨⟨start, length⟩, _, read⟩ := bind_eq_ok read
  obtain ⟨payload, taken, read⟩ := bind_eq_ok read
  exact ⟨start, length, payload, slice_lt_bound taken, read⟩

theorem readPayload_eq_empty (missing : readPayload base offset first rest next = .error .empty) :
    ∃ start length payload, next start length payload = .error .empty := by
  obtain missing | ⟨⟨start, length⟩, _, missing⟩ := bind_eq_error missing
  · exact absurd missing (readHead_ne_empty _ _ _ _)
  · obtain missing | ⟨payload, _, missing⟩ := bind_eq_error missing
    · exact absurd missing (slice_ne_empty _ _ _ _)
    · exact ⟨start, length, payload, missing⟩

end Payload

/-! ## One item -/

section Item

variable {readList : Nat → Bytes → Except Error (List Item)} {first : UInt8} {offset : Nat}
  {rest head payload : Bytes}

theorem readItemWith_byte (small : first.toNat < 0x80) :
    readItemWith readList offset (first :: rest) = .ok (.string [first], 1) := by
  unfold readItemWith
  exact if_pos (UInt8.lt_iff_toNat_lt.2 small)

theorem readItemWith_string (above : 0x80 ≤ first.toNat) (below : first.toNat < 0xc0) :
    readItemWith readList offset (first :: rest) =
      readPayload 0x80 offset first rest fun start length payload =>
        .ok (.string payload, start + length) := by
  have low : ¬first < 0x80 := fun small => Nat.not_le.2 (UInt8.lt_iff_toNat_lt.1 small) above
  unfold readItemWith readPayload
  dsimp only
  rw [if_neg low]
  -- a short head counts from the base itself, a long one from the last short head
  by_cases short : first ≤ 0xb7
  · have told : (first - 0x80).toNat = first.toNat - 0x80 :=
      UInt8.toNat_sub_of_le _ _ (UInt8.le_iff_toNat_le.2 above)
    rw [if_pos short, readHead_short (UInt8.le_iff_toNat_le.1 short), told]
    simp only [bind, Except.bind]
  · have high : 0xb7 < first.toNat := Nat.lt_of_not_le fun le => short (UInt8.le_iff_toNat_le.2 le)
    have told : (first - 0xb7).toNat = first.toNat - (0x80 + 55) :=
      UInt8.toNat_sub_of_le _ _ (UInt8.le_iff_toNat_le.2 (Nat.le_of_lt high))
    have string : first ≤ 0xbf := UInt8.le_iff_toNat_le.2 (Nat.le_of_lt_succ below)
    rw [if_neg short, if_pos string, readHead_long high, bind_assoc, told]
    exact bind_congr fun _ => rfl

theorem readItemWith_list (above : 0xc0 ≤ first.toNat) :
    readItemWith readList offset (first :: rest) =
      readPayload 0xc0 offset first rest fun start length payload =>
        (readList (offset + start) payload).map fun items => (.list items, start + length) := by
  have past : ∀ limit : UInt8, limit.toNat < 0xc0 → ¬first ≤ limit := fun limit small le =>
    absurd (Nat.le_trans above (UInt8.le_iff_toNat_le.1 le)) (Nat.not_le.2 small)
  unfold readItemWith readPayload
  dsimp only
  rw [if_neg (fun small => past 0x80 (by decide) (UInt8.le_of_lt small)),
    if_neg (past 0xb7 (by decide)), if_neg (past 0xbf (by decide))]
  by_cases short : first ≤ 0xf7
  · have told : (first - 0xc0).toNat = first.toNat - 0xc0 :=
      UInt8.toNat_sub_of_le _ _ (UInt8.le_iff_toNat_le.2 above)
    rw [if_pos short, readHead_short (UInt8.le_iff_toNat_le.1 short), told]
    simp only [bind, Except.bind, Except.map]
  · have high : 0xf7 < first.toNat := Nat.lt_of_not_le fun le => short (UInt8.le_iff_toNat_le.2 le)
    have told : (first - 0xf7).toNat = first.toNat - (0xc0 + 55) :=
      UInt8.toNat_sub_of_le _ _ (UInt8.le_iff_toNat_le.2 (Nat.le_of_lt high))
    rw [if_neg short, readHead_long high, bind_assoc, told, Nat.add_assoc offset]
    exact bind_congr fun _ => rfl

theorem readItemWith_announced_string (announced : Announces 0x80 head payload.length)
    (fits : (head ++ payload).length < Quantity.bound) :
    readItemWith readList offset (head ++ payload ++ rest) =
      .ok (.string payload, (head ++ payload).length) := by
  obtain ⟨first, digits, rfl, above, below⟩ := announced.first
  rw [List.append_assoc, List.cons_append, readItemWith_string above (by omega),
    readPayload_announced announced fits, List.length_append]

theorem readItemWith_announced_list (announced : Announces 0xc0 head payload.length)
    (fits : (head ++ payload).length < Quantity.bound) :
    readItemWith readList offset (head ++ payload ++ rest) =
      (readList (offset + head.length) payload).map fun items =>
        (.list items, (head ++ payload).length) := by
  obtain ⟨first, digits, rfl, above, below⟩ := announced.first
  rw [List.append_assoc, List.cons_append, readItemWith_list above,
    readPayload_announced announced fits, List.length_append]

/-- What is read as an item, given what is read as the payload of a list. -/
theorem readItemWith_eq_ok {data : Bytes} {item : Item} {used : Nat}
    (read : readItemWith readList offset data = .ok (item, used)) :
    ∃ bytes tail, data = bytes ++ tail ∧ bytes.length = used ∧
      (Derives item bytes ∧ item.depth = 0 ∨
        ∃ head payload items, bytes = head ++ payload ∧ Announces 0xc0 head payload.length ∧
          item = .list items ∧ readList (offset + head.length) payload = .ok items) := by
  cases data with
  | nil => cases read
  | cons first rest =>
      have byte : first.toNat < 256 := first.toNat_lt
      rcases Nat.lt_or_ge first.toNat 0x80 with small | above
      · rw [readItemWith_byte small] at read
        cases read
        exact ⟨[first], rest, rfl, rfl, Or.inl ⟨.byte small, rfl⟩⟩
      · rcases Nat.lt_or_ge first.toNat 0xc0 with string | list
        · rw [readItemWith_string above string] at read
          obtain ⟨head, payload, tail, split, announced, inner⟩ :=
            readPayload_eq_ok above (by omega) read
          cases inner
          exact ⟨head ++ payload, tail, split, List.length_append,
            Or.inl ⟨.string announced, rfl⟩⟩
        · rw [readItemWith_list list] at read
          obtain ⟨head, payload, tail, split, announced, inner⟩ :=
            readPayload_eq_ok list (by omega) read
          obtain ⟨items, items_read, same⟩ := map_eq_ok inner
          cases same
          exact ⟨head ++ payload, tail, split, List.length_append,
            Or.inr ⟨head, payload, items, rfl, announced, rfl, items_read⟩⟩

/-- What is read as an item ends at an offset. -/
theorem readItemWith_lt_bound {data : Bytes} {item : Item} {used : Nat}
    (read : readItemWith readList offset data = .ok (item, used)) : used < Quantity.bound := by
  cases data with
  | nil => cases read
  | cons first rest =>
      rcases Nat.lt_or_ge first.toNat 0x80 with small | above
      · rw [readItemWith_byte small] at read
        cases read
        decide
      · rcases Nat.lt_or_ge first.toNat 0xc0 with string | list
        · rw [readItemWith_string above string] at read
          obtain ⟨start, length, payload, fits, same⟩ := readPayload_lt_bound read
          cases same
          exact fits
        · rw [readItemWith_list list] at read
          obtain ⟨start, length, payload, fits, inner⟩ := readPayload_lt_bound read
          obtain ⟨items, _, same⟩ := map_eq_ok inner
          cases same
          exact fits

/-- An item is missing only where there are no bytes, or in the payload of a list. -/
theorem readItemWith_eq_empty {data : Bytes}
    (missing : readItemWith readList offset data = .error .empty) :
    data = [] ∨ ∃ offset payload, readList offset payload = .error .empty := by
  cases data with
  | nil => exact Or.inl rfl
  | cons first rest =>
      right
      rcases Nat.lt_or_ge first.toNat 0x80 with small | above
      · rw [readItemWith_byte small] at missing
        cases missing
      · rcases Nat.lt_or_ge first.toNat 0xc0 with string | list
        · rw [readItemWith_string above string] at missing
          obtain ⟨start, length, payload, inner⟩ := readPayload_eq_empty missing
          cases inner
        · rw [readItemWith_list list] at missing
          obtain ⟨start, length, payload, inner⟩ := readPayload_eq_empty missing
          exact ⟨offset + start, payload, map_eq_error inner⟩

end Item

theorem exists_readItem (depth : Nat) : ∃ readList, readItem depth = readItemWith readList := by
  cases depth with
  | zero => exact ⟨_, rfl⟩
  | succ depth => exact ⟨_, rfl⟩

/-! ## Payloads of lists -/

theorem readAll_nil (read : Nat → Bytes → Except Error (Item × Nat)) (fuel offset : Nat)
    (done : List Item) : readAll read fuel offset [] done = .ok done.reverse := by
  cases fuel with
  | zero => rfl
  | succ fuel => rfl

theorem readAll_succ {read : Nat → Bytes → Except Error (Item × Nat)} {fuel offset : Nat}
    {data : Bytes} {done : List Item} (nonempty : data ≠ []) :
    readAll read (fuel + 1) offset data done = (do
      let (item, used) ← read offset data
      readAll read fuel (offset + used) (data.drop used) (item :: done)) := by
  cases data with
  | nil => exact absurd rfl nonempty
  | cons byte rest => rfl

/-- The parts of a list, one after the other, when each of them is read as `each` says. -/
theorem readAll_parts {depth fuel offset : Nat} {parts : List (Item × Bytes)} {done : List Item}
    (nonempty : ∀ part ∈ parts, part.2 ≠ [])
    (each : ∀ part ∈ parts, ∀ offset rest, readItem depth offset (part.2 ++ rest) =
      if part.1.depth ≤ depth then .ok (part.1, part.2.length) else .error (.tooDeep maxDepth))
    (enough : (parts.flatMap Prod.snd).length ≤ fuel) :
    readAll (readItem depth) fuel offset (parts.flatMap Prod.snd) done =
      if deepest (parts.map Prod.fst) ≤ depth then .ok (done.reverse ++ parts.map Prod.fst)
      else .error (.tooDeep maxDepth) := by
  induction parts generalizing fuel offset done with
  | nil =>
      rw [List.flatMap_nil, readAll_nil, List.map_nil, List.append_nil]
      exact (if_pos (Nat.zero_le depth)).symm
  | cons part parts ih =>
      rw [List.flatMap_cons] at enough ⊢
      have here : part.2 ≠ [] := nonempty part List.mem_cons_self
      have pos : 0 < part.2.length := List.length_pos_iff.2 here
      rw [List.length_append] at enough
      -- this part takes a byte, so the count that is left covers the other parts
      obtain ⟨fuel, rfl⟩ : ∃ less, fuel = less + 1 := ⟨fuel - 1, by omega⟩
      rw [readAll_succ (List.append_ne_nil_of_left_ne_nil here _),
        each part List.mem_cons_self]
      simp only [List.map_cons, deepest, Nat.max_le]
      by_cases shallow : part.1.depth ≤ depth
      · have rest := @ih fuel (offset + part.2.length) (part.1 :: done)
          (fun part among => nonempty part (List.mem_cons_of_mem _ among))
          (fun part among => each part (List.mem_cons_of_mem _ among)) (by omega)
        rw [if_pos shallow]
        simp only [bind, Except.bind, List.drop_left, rest, shallow, true_and,
          List.reverse_cons, List.append_assoc, List.singleton_append]
      · rw [if_neg shallow, if_neg fun both => shallow both.1]
        rfl

/-- What is read one after the other are parts, each read as an item. -/
theorem parts_of_readAll {read : Nat → Bytes → Except Error (Item × Nat)} {fuel offset : Nat}
    {data : Bytes} {done items : List Item} (Part : Item → Bytes → Prop)
    (each : ∀ offset data item used, read offset data = .ok (item, used) →
      ∃ bytes tail, data = bytes ++ tail ∧ bytes.length = used ∧ Part item bytes)
    (all : readAll read fuel offset data done = .ok items) :
    ∃ parts : List (Item × Bytes), items = done.reverse ++ parts.map Prod.fst ∧
      data = parts.flatMap Prod.snd ∧ ∀ part ∈ parts, Part part.1 part.2 := by
  induction fuel generalizing offset data done with
  | zero =>
      cases data with
      | nil =>
          cases all
          exact ⟨[], (List.append_nil _).symm, rfl, nofun⟩
      | cons byte rest => cases all
  | succ fuel ih =>
      by_cases finished : data = []
      · subst finished
        cases all
        exact ⟨[], (List.append_nil _).symm, rfl, nofun⟩
      · rw [readAll_succ finished] at all
        obtain ⟨⟨item, used⟩, first, all⟩ := bind_eq_ok all
        obtain ⟨bytes, tail, rfl, rfl, here⟩ := each offset data item used first
        simp only [List.drop_left] at all
        obtain ⟨parts, rfl, rfl, rest⟩ := ih all
        refine ⟨(item, bytes) :: parts, ?_, rfl, List.forall_mem_cons.2 ⟨here, rest⟩⟩
        simp only [List.reverse_cons, List.append_assoc, List.singleton_append, List.map_cons]

/-- As every item takes a byte, the count of the loop is not used up. -/
theorem readAll_ne_empty {read : Nat → Bytes → Except Error (Item × Nat)} {fuel offset : Nat}
    {data : Bytes} {done : List Item}
    (present : ∀ offset data, data ≠ [] → read offset data ≠ .error .empty)
    (takes : ∀ offset data item used, read offset data = .ok (item, used) → 1 ≤ used)
    (enough : data.length ≤ fuel) :
    readAll read fuel offset data done ≠ .error .empty := by
  induction fuel generalizing offset data done with
  | zero =>
      rw [List.length_eq_zero_iff.1 (Nat.le_zero.1 enough)]
      exact nofun
  | succ fuel ih =>
      by_cases finished : data = []
      · subst finished
        exact nofun
      · rw [readAll_succ finished]
        intro missing
        obtain missing | ⟨⟨item, used⟩, first, missing⟩ := bind_eq_error missing
        · exact present offset data finished missing
        · have less := takes offset data item used first
          refine ih ?_ missing
          rw [List.length_drop]
          omega

/-! ## Derivations are what is read -/

theorem readItem_list {depth offset : Nat} {head payload rest : Bytes}
    (announced : Announces 0xc0 head payload.length)
    (fits : (head ++ payload).length < Quantity.bound) :
    readItem (depth + 1) offset (head ++ payload ++ rest) =
      (readAll (readItem depth) payload.length (offset + head.length) payload []).map fun items =>
        (.list items, (head ++ payload).length) :=
  readItemWith_announced_list announced fits

theorem readItem_derived {item : Item} {bytes : Bytes} (derived : Derives item bytes)
    (fits : bytes.length < Quantity.bound) (depth offset : Nat) (rest : Bytes) :
    readItem depth offset (bytes ++ rest) =
      if item.depth ≤ depth then .ok (item, bytes.length) else .error (.tooDeep maxDepth) := by
  induction derived generalizing depth offset rest with
  | byte small =>
      obtain ⟨readList, same⟩ := exists_readItem depth
      rw [same, Item.depth, if_pos (Nat.zero_le depth)]
      exact readItemWith_byte small
  | string announced =>
      obtain ⟨readList, same⟩ := exists_readItem depth
      rw [same, Item.depth, if_pos (Nat.zero_le depth)]
      exact readItemWith_announced_string announced fits
  | @list head parts each announced ih =>
      -- the parts are read with one level less, so this is the only case that can use them up
      cases depth with
      | zero =>
          rw [Item.depth, if_neg (Nat.not_succ_le_zero _)]
          exact readItemWith_announced_list announced fits
      | succ depth =>
          have part_fits : ∀ part ∈ parts, part.2.length < Quantity.bound := by
            intro part among
            have within := length_le_of_mem_parts among
            rw [List.length_append] at fits
            omega
          rw [readItem_list announced fits,
            readAll_parts (fun part among => (each part among).nonempty)
              (fun part among => ih part among (part_fits part among) depth) (Nat.le_refl _)]
          simp only [Item.depth, Nat.add_le_add_iff_right]
          by_cases shallow : deepest (parts.map Prod.fst) ≤ depth
          · rw [if_pos shallow, if_pos shallow]
            rfl
          · rw [if_neg shallow, if_neg shallow]
            rfl

theorem derives_of_readItem {depth offset used : Nat} {data : Bytes} {item : Item}
    (read : readItem depth offset data = .ok (item, used)) :
    ∃ bytes tail, data = bytes ++ tail ∧ bytes.length = used ∧ Derives item bytes ∧
      item.depth ≤ depth := by
  induction depth generalizing offset used data item with
  | zero =>
      obtain ⟨bytes, tail, split, length, ⟨derived, flat⟩ | ⟨_, _, _, _, _, _, never⟩⟩ :=
        readItemWith_eq_ok read
      · exact ⟨bytes, tail, split, length, derived, Nat.le_of_eq flat⟩
      · cases never
  | succ depth ih =>
      obtain ⟨bytes, tail, split, length,
        ⟨derived, flat⟩ | ⟨head, payload, items, rfl, announced, rfl, inside⟩⟩ :=
          readItemWith_eq_ok read
      · exact ⟨bytes, tail, split, length, derived, flat ▸ Nat.zero_le _⟩
      · obtain ⟨parts, rfl, rfl, each⟩ :=
          parts_of_readAll (fun item bytes => Derives item bytes ∧ item.depth ≤ depth)
            (fun _ _ _ _ part => ih part) inside
        refine ⟨_, tail, split, length, .list (fun part among => (each part among).1) announced, ?_⟩
        exact Nat.succ_le_succ (deepest_le_iff.2 fun item among => by
          obtain ⟨part, listed, rfl⟩ := List.mem_map.1 among
          exact (each part listed).2)

theorem readItem_ne_empty {data : Bytes} (present : data ≠ []) (depth offset : Nat) :
    readItem depth offset data ≠ .error .empty := by
  induction depth generalizing offset data with
  | zero =>
      intro missing
      obtain empty | ⟨_, _, never⟩ := readItemWith_eq_empty missing
      · exact present empty
      · cases never
  | succ depth ih =>
      intro missing
      obtain empty | ⟨inner, payload, never⟩ := readItemWith_eq_empty missing
      · exact present empty
      · refine readAll_ne_empty (fun offset data present => ih present offset) ?_
          (Nat.le_refl _) never
        intro offset data item used read
        obtain ⟨bytes, _, _, rfl, derived, _⟩ := derives_of_readItem read
        exact List.length_pos_iff.2 derived.nonempty

/-! ## Whole byte strings -/

theorem decode_derived {item : Item} {bytes : Bytes} (derived : Derives item bytes)
    (fits : bytes.length < Quantity.bound) :
    decode bytes = if item.depth ≤ maxDepth then .ok item else .error (.tooDeep maxDepth) := by
  have read := readItem_derived derived fits maxDepth 0 []
  rw [List.append_nil] at read
  unfold decode
  rw [read]
  by_cases shallow : item.depth ≤ maxDepth
  · rw [if_pos shallow, if_pos shallow]
    exact if_pos rfl
  · rw [if_neg shallow, if_neg shallow]
    rfl

theorem decodeAll_derived (parts : List (Item × Bytes))
    (each : ∀ part ∈ parts, Derives part.1 part.2)
    (fits : ∀ part ∈ parts, part.2.length < Quantity.bound) :
    decodeAll (parts.flatMap Prod.snd) =
      if deepest (parts.map Prod.fst) ≤ maxDepth then .ok (parts.map Prod.fst)
      else .error (.tooDeep maxDepth) :=
  readAll_parts (fun part among => (each part among).nonempty)
    (fun part among => readItem_derived (each part among) (fits part among) maxDepth)
    (Nat.le_refl _)

theorem derives_of_decode {item : Item} {data : Bytes} (read : decode data = .ok item) :
    Derives item data ∧ item.depth ≤ maxDepth := by
  obtain ⟨⟨item', used⟩, first, read⟩ := bind_eq_ok read
  obtain ⟨bytes, tail, rfl, rfl, derived, shallow⟩ := derives_of_readItem first
  dsimp only at read
  split at read
  · rename_i whole
    cases read
    have nothing : tail = [] := List.length_eq_zero_iff.1 (by
      rw [List.length_append] at whole
      omega)
    rw [nothing, List.append_nil]
    exact ⟨derived, shallow⟩
  · cases read

/-- Only byte strings whose length is a 64-bit quantity are read. -/
theorem length_lt_of_decode {item : Item} {data : Bytes} (read : decode data = .ok item) :
    data.length < Quantity.bound := by
  obtain ⟨⟨item', used⟩, first, read⟩ := bind_eq_ok read
  obtain ⟨readList, same⟩ := exists_readItem maxDepth
  rw [same] at first
  have fits := readItemWith_lt_bound first
  dsimp only at read
  split at read
  · rename_i whole
    rwa [whole] at fits
  · cases read

theorem decode_eq_empty_iff (data : Bytes) : decode data = .error .empty ↔ data = [] := by
  constructor
  · intro missing
    by_contra present
    obtain missing | ⟨⟨item, used⟩, _, missing⟩ := bind_eq_error missing
    · exact readItem_ne_empty present _ _ missing
    · dsimp only at missing
      split at missing
      · cases missing
      · cases missing
  · rintro rfl
    rfl

end EvmLedger.Rlp
