/-
# EvmLedger.Proofs.Machine.Survival -- what is left of a run

Log entries, destroyed accounts and refunds are written to the scope of the frame
that makes them, and they get to the effects of the transaction through every scope
below, or not at all.  What is left in the end can be told without scopes: it is
what was done by frames that survived (`Survives`), those that came to a success
with all frames below them.

The invariant of the run looks at the scopes that may come to the top again, merged
into one: together they record the deeds of which no frame has failed so far
(`Kept.unfailed`), and that are no longer in a scope further in, since at some time
after the deed no more frames were open than there are scopes (`Kept.surfaced`).  A
frame that fails takes its own scope with it, and so it takes the deeds that are
nowhere else.
-/
import EvmLedger.Proofs.Machine.Footprint
import EvmLedger.Proofs.Machine.Isolation
import EvmLedger.Proofs.Overlay.Balance

namespace EvmLedger.Vm

set_option autoImplicit false

/-! ## Records of deeds -/

namespace Deed

/-- The log entry that was made. -/
def entry? : Deed → Option Log
  | .logged entry => some entry
  | _ => none

/-- Whether a slot was cleared that was not clear. -/
def clears : Deed → Bool
  | .stored _ _ former value => former != 0 && value == 0
  | _ => false

end Deed

/-- Some effects are a record of some deeds: the log entries in order, the accounts destroyed, and
what is given back once for every one of them and for every slot that was cleared. -/
structure Records (schedule : Schedule) (e : Effects) (deeds : List Deed) : Prop where
  logs : e.logs.toList = deeds.filterMap Deed.entry?
  suicides : ∀ a, a ∈ e.suicides ↔ ∃ beneficiary, Deed.destroyed a beneficiary ∈ deeds
  refund : e.refund = min (2 ^ 64 - 1)
    (schedule.suicideRefund * e.suicides.size + schedule.sstoreRefund * deeds.countP Deed.clears)

/-- Effects that differ in slots, balances, code and nonces at most. -/
structure SameRecord (e e' : Effects) : Prop where
  logs : e'.logs = e.logs
  suicides : e'.suicides = e.suicides
  refund : e'.refund = e.refund

theorem SameRecord.refl (e : Effects) : SameRecord e e := ⟨rfl, rfl, rfl⟩

variable {schedule : Schedule} {ctx : Context}

theorem Records.of_same {e e' : Effects} {deeds : List Deed} (records : Records schedule e deeds)
    (same : SameRecord e e') : Records schedule e' deeds := by
  refine ⟨?_, ?_, ?_⟩
  · rw [same.logs]
    exact records.logs
  · rw [same.suicides]
    exact records.suicides
  · rw [same.refund, same.suicides]
    exact records.refund

theorem records_empty (schedule : Schedule) : Records schedule .empty [] := by
  refine ⟨rfl, fun a => ?_, ?_⟩
  · simp [Effects.empty]
  · simp [Effects.empty]

namespace Overlay

variable {host : Host} {o moved : Overlay}

theorem sameRecord_transfer {payer payee : Address} {value : Word}
    (paid : o.transfer host payer payee value = .ok moved) :
    SameRecord o.flatten moved.flatten := by
  rcases transfer_eq_ok paid with rfl | ⟨_, _, _, rfl⟩
  · exact .refl _
  · rw [flatten_setBalance, flatten_setBalance]
    exact ⟨rfl, rfl, rfl⟩

theorem sameRecord_handOver {address beneficiary : Address}
    (handed : o.handOver host address beneficiary = .ok moved) :
    SameRecord o.flatten moved.flatten := by
  rcases handOver_eq_ok handed with ⟨_, rfl | rfl⟩ | paid
  · exact .refl _
  · rw [flatten_setBalance]
    exact ⟨rfl, rfl, rfl⟩
  · exact sameRecord_transfer paid

theorem flatten_refundIf (o : Overlay) (reason : Prop) [Decidable reason] (amount : Nat)
    (fits : o.RefundsFit) :
    (o.refundIf reason amount).flatten =
      { o.flatten with
        refund := Quantity.addSat o.flatten.refund (if reason then amount else 0) } := by
  unfold refundIf
  split
  · exact flatten_addRefund o amount
  · rw [Quantity.addSat_zero fits.flatten]

end Overlay

/-- What is added to a sum that stops at the greatest amount is added to the sum. -/
theorem addSat_min (sum amount : Nat) :
    Quantity.addSat (min (2 ^ 64 - 1) sum) amount = min (2 ^ 64 - 1) (sum + amount) := by
  simp only [Quantity.addSat, Quantity.clamp, Quantity.greatest, Quantity.bound]
  omega

/-- A record goes on with a deed. -/
theorem Records.snoc {e e' : Effects} {deeds : List Deed} {deed : Deed}
    (records : Records schedule e deeds)
    (logs : e'.logs.toList = e.logs.toList ++ deed.entry?.toList)
    (suicides : ∀ a, a ∈ e'.suicides ↔
      a ∈ e.suicides ∨ ∃ beneficiary, deed = .destroyed a beneficiary)
    (refund : e'.refund = Quantity.addSat e.refund
      (schedule.suicideRefund * (e'.suicides.size - e.suicides.size) +
        schedule.sstoreRefund * (if deed.clears then 1 else 0)))
    (size : e.suicides.size ≤ e'.suicides.size) : Records schedule e' (deeds ++ [deed]) := by
  refine ⟨?_, fun a => ?_, ?_⟩
  · rw [logs, records.logs, List.filterMap_append]
    rfl
  · rw [suicides, records.suicides]
    simp only [List.mem_append, List.mem_singleton, eq_comm (a := deed), exists_or]
  · have all : schedule.suicideRefund * e'.suicides.size =
        schedule.suicideRefund * e.suicides.size +
          schedule.suicideRefund * (e'.suicides.size - e.suicides.size) := by
      rw [← Nat.mul_add, Nat.add_sub_cancel' size]
    have cleared : schedule.sstoreRefund * (deeds ++ [deed]).countP Deed.clears =
        schedule.sstoreRefund * deeds.countP Deed.clears +
          schedule.sstoreRefund * (if deed.clears then 1 else 0) := by
      rw [List.countP_append, List.countP_singleton, Nat.mul_add]
    rw [refund, records.refund, addSat_min, all, cleared, Nat.add_add_add_comm]

/-- What is given back for a write to a slot is given back for clearing it. -/
theorem refund_of_clears (schedule : Schedule) (contract : Address) (key former value : Word) :
    (schedule.sstoreCost former value).2 = schedule.sstoreRefund *
      (if (Deed.stored contract key former value).clears then 1 else 0) := by
  have iff : (Deed.stored contract key former value).clears = true ↔ former ≠ 0 ∧ value = 0 := by
    simp [Deed.clears]
  unfold Schedule.sstoreCost
  dsimp only
  by_cases cleared : former ≠ 0 ∧ value = 0
  · rw [if_pos cleared, if_pos (iff.2 cleared), Nat.mul_one]
  · rw [if_neg cleared, if_neg (mt iff.1 cleared), Nat.mul_zero]

/-- Effects in which a deed was done record that deed too. -/
theorem Records.done {o o' : Overlay} {deeds : List Deed} {deed : Option Deed}
    (records : Records ctx.schedule o.flatten deeds) (fits : o.RefundsFit)
    (done : Deed.Done ctx o deed o') :
    Records ctx.schedule o'.flatten (deeds ++ deed.toList) := by
  have nothing_more : ∀ (sum : Nat), ctx.schedule.suicideRefund * (sum - sum) +
      ctx.schedule.sstoreRefund * (if false = true then 1 else 0) = 0 := by simp
  cases done with
  | nothing =>
      rw [Option.toList_none, List.append_nil]
      exact records
  | logged entry =>
      rw [Overlay.flatten_addLog]
      refine records.snoc ?_ (fun a => ?_) ?_ (Nat.le_refl _)
      · simp [Deed.entry?]
      · simp
      · exact (nothing_more _).symm ▸ (Quantity.addSat_zero fits.flatten).symm
  | numbered creator =>
      unfold Overlay.incrementNonce
      rw [Overlay.flatten_setNonce]
      refine records.snoc ?_ (fun a => ?_) ?_ (Nat.le_refl _)
      · simp [Deed.entry?]
      · simp
      · exact (nothing_more _).symm ▸ (Quantity.addSat_zero fits.flatten).symm
  | stored contract key value refund earned =>
      rw [Overlay.flatten_setStorage, Overlay.flatten_refundIf o _ _ fits]
      refine records.snoc ?_ (fun a => ?_) ?_ (Nat.le_refl _)
      · simp [Deed.entry?]
      · simp
      · have paid : (if 0 < refund then refund else 0) = refund := by
          split <;> omega
        dsimp only
        rw [paid, Nat.sub_self, Nat.mul_zero, Nat.zero_add, earned,
          ← refund_of_clears ctx.schedule contract key]
  | destroyed account beneficiary moved handed =>
      have same := Overlay.sameRecord_handOver handed
      unfold Overlay.refundSuicide at same
      rw [Overlay.flatten_refundIf o _ _ fits] at same
      rw [Overlay.flatten_suicide]
      have size : (o.flatten.suicides.insert account).size =
          o.flatten.suicides.size + if o.hasSuicided account = false then 1 else 0 := by
        rw [Std.ExtTreeSet.size_insert, Overlay.hasSuicided_eq_flatten]
        cases known : o.flatten.suicides.contains account with
        | true => rfl
        | false => rfl
      refine records.snoc ?_ (fun a => ?_) ?_ ?_
      · show moved.flatten.logs.toList = _
        rw [same.logs]
        simp [Deed.entry?]
      · show a ∈ moved.flatten.suicides.insert account ↔ _
        rw [same.suicides, Std.ExtTreeSet.mem_insert, Std.compare_eq_iff_eq]
        simp [or_comm]
      · show moved.flatten.refund = _
        rw [same.refund, same.suicides]
        dsimp only
        rw [size, Nat.add_sub_cancel_left]
        congr 1
        simp [Deed.clears]
      · show _ ≤ (moved.flatten.suicides.insert account).size
        rw [same.suicides, size]
        exact Nat.le_add_right _ _

/-- Scopes merged into one, innermost first. -/
def merged : List Effects → Effects
  | [] => .empty
  | current :: outer => Overlay.flatten ⟨current, outer⟩

namespace Machine

variable {m : Machine} {h i n d : Nat} {result : Result}

/-! ## Frames that are open -/

/-- The frame that is started in step `h` of the run of `m` is open before step `n`: it was started
earlier, and no result of it has come back. -/
structure OpenAt (ctx : Context) (m : Machine) (h n : Nat) : Prop where
  earlier : h < n
  entered : ∃ params, (exec ctx h m).control = .enter params
  ongoing : Ongoing ctx (exec ctx h m) (n - h + 1)

/-- The frame that is started in step `h` of the run of `m` comes to a success. -/
def Succeeds (ctx : Context) (m : Machine) (h : Nat) : Prop :=
  ∃ k result, EndsAfter ctx (exec ctx h m) k result ∧ result.isSuccess = true

/-- All frames that are open before step `n`, the one on top and those that wait for it, come to a
success. -/
def Survives (ctx : Context) (m : Machine) (n : Nat) : Prop :=
  ∀ h, OpenAt ctx m h n → Succeeds ctx m h

theorem OpenAt.mono (isOpen : OpenAt ctx m h n) (le : i ≤ n) (after : h < i) : OpenAt ctx m h i :=
  ⟨after, isOpen.entered, isOpen.ongoing.mono (by omega)⟩

/-- A frame that is open is one of the open frames, on top of those that waited when it was
started. -/
theorem OpenAt.deeper (isOpen : OpenAt ctx m h n) :
    (exec ctx h m).waiting.length < (exec ctx n m).openFrames.length := by
  obtain ⟨entered, enters⟩ := isOpen.entered
  obtain ⟨j, rfl⟩ := Nat.exists_eq_add_of_lt isOpen.earlier
  have inside : Inside (exec ctx h m) entered (exec ctx (j + 1) (exec ctx h m)) := by
    refine inside_of_before_end enters fun i le other returns => ?_
    exact isOpen.ongoing i (by omega) other returns
  obtain ⟨lower, inner, frames, -, -⟩ := inside.nested
  have count := congrArg List.length frames
  rw [← exec_add] at count
  rw [← length_activations, Nat.add_assoc, count]
  simp only [activations, enters, List.length_append, List.length_cons, List.length_map]
  omega

/-- A frame that was open is open, or it has ended. -/
theorem OpenAt.after (isOpen : OpenAt ctx m h i) (le : i ≤ n) :
    OpenAt ctx m h n ∨ ∃ k result, h + k ≤ n ∧ EndsAfter ctx (exec ctx h m) k result := by
  rcases ongoing_or_ended ctx (exec ctx h m) (n - h + 1) with ongoing | ⟨k, before, result, ends⟩
  · exact Or.inl ⟨Nat.lt_of_lt_of_le isOpen.earlier le, isOpen.entered, ongoing⟩
  · have earlier := isOpen.earlier
    exact Or.inr ⟨k, result, by omega, ends⟩

/-- The step in which a frame ends is one after which fewer frames are open. -/
theorem OpenAt.lowers (isOpen : OpenAt ctx m h i) {k : Nat} (last : h + k = n + 1)
    (ends : EndsAfter ctx (exec ctx h m) k result) :
    (exec ctx (n + 1) m).openFrames.length = (exec ctx h m).waiting.length ∧
      ∀ j, i ≤ j → j ≤ n → (exec ctx h m).waiting.length < (exec ctx j m).openFrames.length := by
  have reached : exec ctx k (exec ctx h m) = exec ctx (n + 1) m := by
    rw [← exec_add, last]
  constructor
  · have returns := ends.returns
    rw [reached] at returns
    rw [length_openFrames returns, ← reached]
    exact ends.level
  · intro j from_i to_n
    have earlier := isOpen.earlier
    refine OpenAt.deeper ⟨Nat.lt_of_lt_of_le earlier from_i, isOpen.entered, ?_⟩
    exact ends.ongoing.mono (by omega)

/-! ## Deeds that are kept -/

/-- What was done in step `i` of the run of `m` is recorded before step `n` in the `d` outermost
scopes and the root scope. -/
structure Kept (ctx : Context) (m : Machine) (n d i : Nat) : Prop where
  /-- no frame that was open then has failed -/
  unfailed : ∀ h, OpenAt ctx m h i → ∀ k result, h + k ≤ n →
    EndsAfter ctx (exec ctx h m) k result → result.isSuccess = true
  /-- at some time since then no more than `d` frames were open -/
  surfaced : ∃ j, i ≤ j ∧ j ≤ n ∧ (exec ctx j m).openFrames.length ≤ d

/-- As long as no frame ends, the same is kept in the same scopes. -/
theorem kept_of_rising
    (rising : (exec ctx n m).openFrames.length ≤ (exec ctx (n + 1) m).openFrames.length)
    (le : i ≤ n) : Kept ctx m (n + 1) d i ↔ Kept ctx m n d i := by
  constructor
  · rintro ⟨unfailed, j, after, to_n, few⟩
    refine ⟨fun h isOpen k result before => unfailed h isOpen k result (by omega), ?_⟩
    rcases Nat.lt_or_ge n j with last | before
    · refine ⟨n, le, Nat.le_refl n, rising.trans ?_⟩
      rw [show n + 1 = j by omega]
      exact few
    · exact ⟨j, after, before, few⟩
  · rintro ⟨unfailed, j, after, to_n, few⟩
    refine ⟨fun h isOpen k result before ends => ?_, j, after, Nat.le_succ_of_le to_n, few⟩
    rcases Nat.lt_or_ge n (h + k) with last | earlier
    · obtain ⟨same, deeper⟩ := isOpen.lowers (show h + k = n + 1 by omega) ends
      have open_now := deeper n le (Nat.le_refl n)
      omega
    · exact unfailed h isOpen k result earlier ends

/-- When a frame succeeds, what was kept in its scope is kept in the next one. -/
theorem kept_of_success (returns : (exec ctx (n + 1) m).control = .returning result)
    (succeeded : result.isSuccess = true) (le : i ≤ n) :
    (d < (exec ctx (n + 1) m).openFrames.length →
        (Kept ctx m (n + 1) d i ↔ Kept ctx m n d i)) ∧
      (Kept ctx m (n + 1) (exec ctx (n + 1) m).openFrames.length i ↔
        Kept ctx m n (exec ctx n m).openFrames.length i) := by
  have unfailed : (∀ h, OpenAt ctx m h i → ∀ k result, h + k ≤ n + 1 →
        EndsAfter ctx (exec ctx h m) k result → result.isSuccess = true) ↔
      ∀ h, OpenAt ctx m h i → ∀ k result, h + k ≤ n →
        EndsAfter ctx (exec ctx h m) k result → result.isSuccess = true := by
    refine forall₂_congr fun h isOpen => forall₂_congr fun k other => ?_
    refine ⟨fun all before => all (by omega), fun all before ends => ?_⟩
    rcases Nat.lt_or_ge n (h + k) with last | earlier
    · have same := ends.returns
      rw [← exec_add, show h + k = n + 1 by omega, returns] at same
      cases same
      exact succeeded
    · exact all earlier ends
  constructor
  · intro inner
    refine ⟨fun kept => ⟨unfailed.1 kept.unfailed, ?_⟩, fun kept => ⟨unfailed.2 kept.unfailed, ?_⟩⟩
    · obtain ⟨j, after, to_n, few⟩ := kept.surfaced
      rcases Nat.lt_or_ge n j with last | before
      · rw [show j = n + 1 by omega] at few
        omega
      · exact ⟨j, after, before, few⟩
    · obtain ⟨j, after, to_n, few⟩ := kept.surfaced
      exact ⟨j, after, by omega, few⟩
  · refine ⟨fun kept => ⟨unfailed.1 kept.unfailed, n, le, Nat.le_refl n, Nat.le_refl _⟩, fun kept =>
      ⟨unfailed.2 kept.unfailed, n + 1, by omega, Nat.le_refl _, Nat.le_refl _⟩⟩

/-- When a frame fails, what was kept further out is kept there. -/
theorem kept_of_failure
    (started : ∃ h < n, ∃ params, (exec ctx h m).control = .enter params ∧
      EndsAfter ctx (exec ctx h m) (n - h + 1) result)
    (failed : result.isSuccess = false) (le : i ≤ n)
    (inner : d ≤ (exec ctx (n + 1) m).openFrames.length) :
    Kept ctx m (n + 1) d i ↔ Kept ctx m n d i := by
  constructor
  · rintro ⟨unfailed, j, after, to_n, few⟩
    refine ⟨fun h isOpen k result before => unfailed h isOpen k result (by omega), ?_⟩
    rcases Nat.lt_or_ge n j with last | before
    · -- the frame that failed was started since, or it would have been open then
      obtain ⟨h, earlier, params, enters, ends⟩ := started
      rcases Nat.lt_or_ge h i with open_then | since
      · have isOpen : OpenAt ctx m h i :=
          ⟨open_then, ⟨params, enters⟩, ends.ongoing.mono (by omega)⟩
        have succeeded := unfailed h isOpen _ _ (by omega) ends
        rw [failed] at succeeded
        cases succeeded
      · have level := ends.level
        have returns := ends.returns
        rw [← exec_add, show h + (n - h + 1) = n + 1 by omega] at level returns
        rw [show j = n + 1 by omega, length_openFrames returns, level] at few
        refine ⟨h, since, Nat.le_of_lt earlier, ?_⟩
        simpa only [openFrames, enters, List.length_map] using few
    · exact ⟨j, after, before, few⟩
  · rintro ⟨unfailed, j, after, to_n, few⟩
    refine ⟨fun h isOpen k other before ends => ?_, j, after, Nat.le_succ_of_le to_n, few⟩
    rcases Nat.lt_or_ge n (h + k) with last | earlier
    · obtain ⟨same, deeper⟩ := isOpen.lowers (show h + k = n + 1 by omega) ends
      have too_many := deeper j after to_n
      omega
    · exact unfailed h isOpen k other earlier ends

/-- What is done in a step is kept in the scope of the running frame. -/
theorem kept_self : Kept ctx m n d n ↔ (exec ctx n m).openFrames.length ≤ d := by
  constructor
  · rintro ⟨-, j, after, to_n, few⟩
    rwa [Nat.le_antisymm to_n after] at few
  · intro few
    refine ⟨fun h isOpen k result before ends => ?_, n, Nat.le_refl n, Nat.le_refl n, few⟩
    exact absurd ends.level (isOpen.ongoing k (by omega) result ends.returns)

/-- When all frames have ended, what is kept is what was done by frames that survived. -/
theorem kept_iff_survives (none_open : (exec ctx n m).openFrames = []) (le : i ≤ n) :
    Kept ctx m n 0 i ↔ Survives ctx m i := by
  constructor
  · intro kept h isOpen
    rcases isOpen.after le with still | ⟨k, result, before, ends⟩
    · have more := still.deeper
      rw [none_open] at more
      exact absurd more (Nat.not_lt_zero _)
    · exact ⟨k, result, ends, kept.unfailed h isOpen k result before ends⟩
  · intro survives
    refine ⟨fun h isOpen k result _ ends => ?_, n, le, Nat.le_refl n, ?_⟩
    · obtain ⟨k', result', ends', succeeded⟩ := survives h isOpen
      obtain rfl := ends.unique ends'
      have same := ends.returns
      rw [ends'.returns] at same
      cases same
      exact succeeded
    · rw [none_open]
      exact Nat.le_refl 0

/-- It does not matter how many more scopes there could be than frames are open. -/
theorem kept_of_all {d' : Nat} (le : i ≤ n) (all : (exec ctx n m).openFrames.length ≤ d)
    (all' : (exec ctx n m).openFrames.length ≤ d') : Kept ctx m n d i ↔ Kept ctx m n d' i :=
  ⟨fun kept => ⟨kept.unfailed, n, le, Nat.le_refl n, all'⟩,
    fun kept => ⟨kept.unfailed, n, le, Nat.le_refl n, all⟩⟩

/-! ## The invariant of the scopes -/

open Classical in
/-- What was done in some of the first `n` steps of the run of `m`, in order. -/
noncomputable def deedsWhere (ctx : Context) (m : Machine) (chosen : Nat → Prop) (n : Nat) :
    List Deed :=
  (List.range n).filterMap fun i => if chosen i then deed? ctx (exec ctx i m) else none

open Classical in
theorem deedsWhere_congr {chosen chosen' : Nat → Prop} (same : ∀ i < n, chosen i ↔ chosen' i) :
    deedsWhere ctx m chosen n = deedsWhere ctx m chosen' n := by
  refine List.filterMap_congr fun i among => ?_
  exact if_congr (same i (List.mem_range.1 among)) rfl rfl

open Classical in
theorem deedsWhere_succ (chosen : Nat → Prop) :
    deedsWhere ctx m chosen (n + 1) = deedsWhere ctx m chosen n ++
      (if chosen n then deed? ctx (exec ctx n m) else none).toList := by
  unfold deedsWhere
  rw [List.range_succ, List.filterMap_append]
  rfl

theorem deedsWhere_undone (undone : deed? ctx (exec ctx n m) = none) (chosen : Nat → Prop) :
    deedsWhere ctx m chosen (n + 1) = deedsWhere ctx m chosen n := by
  rw [deedsWhere_succ, undone, ite_self, Option.toList_none, List.append_nil]

/-- As long as no frame ends, what is kept in `d` scopes goes on with what the frame on top does, if
its scope is one of them. -/
theorem deedsWhere_rising
    (rising : (exec ctx n m).openFrames.length ≤ (exec ctx (n + 1) m).openFrames.length) :
    deedsWhere ctx m (Kept ctx m (n + 1) d) (n + 1) = deedsWhere ctx m (Kept ctx m n d) n ++
      if (exec ctx n m).openFrames.length ≤ d then (deed? ctx (exec ctx n m)).toList else [] := by
  rw [deedsWhere_succ, deedsWhere_congr fun i before => kept_of_rising rising (Nat.le_of_lt before)]
  congr 1
  have now := (kept_of_rising (d := d) rising (Nat.le_refl n)).trans kept_self
  by_cases top : (exec ctx n m).openFrames.length ≤ d
  · rw [if_pos top, if_pos (now.2 top)]
  · rw [if_neg top, if_neg (mt now.1 top)]
    rfl

/-- The frame on top has halted and will fail. -/
def Doomed (m : Machine) : Prop :=
  ∃ frame halt, m.control = .halting frame halt ∧ (halt.result frame.gas).isSuccess = false

theorem not_doomed (busy : ∀ frame halt, m.control ≠ .halting frame halt) : ¬Doomed m :=
  fun ⟨frame, halt, halting, _⟩ => busy frame halt halting

/-- Before step `n` of the run of `m`, the scopes that may come to the top record what is kept in
them; the scope of a frame that will fail cannot. -/
def Journalled (ctx : Context) (m : Machine) (n : Nat) : Prop :=
  ∀ inner, inner <:+ (exec ctx n m).overlay.scopes → inner ≠ [] →
    (inner = (exec ctx n m).overlay.scopes → ¬Doomed (exec ctx n m)) →
    Records ctx.schedule (merged inner) (deedsWhere ctx m (Kept ctx m n (inner.length - 1)) n)

/-- A step that does nothing and ends no frame leaves everything as it is recorded. -/
theorem Journalled.of_same (journalled : Journalled ctx m n)
    (rising : (exec ctx n m).openFrames.length ≤ (exec ctx (n + 1) m).openFrames.length)
    (undone : deed? ctx (exec ctx n m) = none) (sound : ¬Doomed (exec ctx n m))
    {inner : List Effects} (within : inner <:+ (exec ctx n m).overlay.scopes)
    (nonempty : inner ≠ []) :
    Records ctx.schedule (merged inner)
      (deedsWhere ctx m (Kept ctx m (n + 1) (inner.length - 1)) (n + 1)) := by
  rw [deedsWhere_undone undone,
    deedsWhere_congr fun i before => kept_of_rising rising (Nat.le_of_lt before)]
  exact journalled inner within nonempty fun _ => sound

/-- The scopes further out than the one on top may all come to the top. -/
theorem Journalled.enclosing (journalled : Journalled ctx m n) {inner : List Effects}
    (within : inner <:+ (exec ctx n m).overlay.outer) (nonempty : inner ≠ []) :
    Records ctx.schedule (merged inner)
      (deedsWhere ctx m (Kept ctx m n (inner.length - 1)) n) := by
  have short := within.length_le
  refine journalled inner (within.trans (List.suffix_cons _ _)) nonempty fun whole => ?_
  rw [whole, Overlay.scopes_eq, List.length_cons] at short
  omega

/-- A step of the running frame does not reach them. -/
theorem Journalled.of_outer (journalled : Journalled ctx m n)
    (even : (exec ctx n m).overlay.depth = (exec ctx n m).openFrames.length)
    (rising : (exec ctx n m).openFrames.length ≤ (exec ctx (n + 1) m).openFrames.length)
    {inner : List Effects} (within : inner <:+ (exec ctx n m).overlay.outer)
    (nonempty : inner ≠ []) :
    Records ctx.schedule (merged inner)
      (deedsWhere ctx m (Kept ctx m (n + 1) (inner.length - 1)) (n + 1)) := by
  have short := within.length_le
  have positive := List.length_pos_iff.2 nonempty
  unfold Overlay.depth at even
  rw [deedsWhere_rising rising, if_neg (by omega), List.append_nil]
  exact journalled.enclosing within nonempty

/-- A frame that starts leaves no record. -/
theorem Transition.opening {m' : Machine} {events : List Event}
    (moved : Transition ctx m m' events) {entered : Params} (enters : m.control = .enter entered)
    (fits : m.overlay.RefundsFit) :
    m'.overlay = m.overlay ∨ m'.overlay.outer = m.overlay.scopes ∧
      SameRecord m.overlay.flatten m'.overlay.flatten := by
  cases moved with
  | @opened scene params overlay jumps cache events prepared known =>
      right
      refine ⟨outer_prepare prepared, ?_⟩
      rw [← Overlay.flatten_enter fits]
      rcases prepare_eq_ok prepared with rfl | paid
      · exact .refl _
      · exact Overlay.sameRecord_transfer paid
  | rejected refused => exact Or.inl rfl
  | _ => cases enters

/-- Settling leaves no record, and what was to fail fails. -/
theorem sameRecord_settle {params : Params} {overlay settled : Overlay} {result' : Result}
    (ended : settle schedule params overlay result = (result', settled)) :
    SameRecord overlay.flatten settled.flatten ∧
      (result'.isSuccess = true → result.isSuccess = true) := by
  rcases settle_eq ended with ⟨rfl, rfl | rfl⟩ | ⟨data, gas, rfl, rfl, rfl⟩
  · exact ⟨.refl _, id⟩
  · exact ⟨.refl _, nofun⟩
  · rw [Overlay.flatten_setCode]
    exact ⟨⟨rfl, rfl, rfl⟩, fun _ => rfl⟩

section Run

variable {params : Params} {cache : JumpCache}

theorem Journalled.enter (journalled : Journalled ctx (.start params cache) n) {entered : Params}
    (enters : (exec ctx n (.start params cache)).control = .enter entered) :
    Journalled ctx (.start params cache) (n + 1) := by
  have moved := transition_exec ctx n (.start params cache)
  have undone : deed? ctx (exec ctx n (.start params cache)) = none := by
    simp only [deed?, enters]
  have sound : ¬Doomed (exec ctx n (.start params cache)) :=
    not_doomed (by simp [enters])
  have before := even_start ctx params cache n
  have after := even_start ctx params cache (n + 1)
  intro inner within nonempty sound'
  rcases moved.opening enters (refundsFit_exec ctx params cache n) with same | ⟨outer, same⟩
  · have rising := Nat.le_of_eq (before.symm.trans ((congrArg Overlay.depth same).symm.trans after))
    rw [same] at within
    exact journalled.of_same rising undone sound within nonempty
  · have depth : (exec ctx (n + 1) (.start params cache)).overlay.depth =
        (exec ctx n (.start params cache)).overlay.depth + 1 := congrArg List.length outer
    rcases Overlay.suffix_scopes within with inside | rfl
    · rw [outer] at inside
      exact journalled.of_same (by omega) undone sound inside nonempty
    · -- the new scope has no deeds in it, so it records what the others do
      have whole := journalled _ (List.suffix_refl _) (List.cons_ne_nil _ _) fun _ => sound
      have all : (exec ctx n (.start params cache)).openFrames.length ≤
          (exec ctx n (.start params cache)).overlay.scopes.length - 1 := before.symm.le
      have more : (exec ctx n (.start params cache)).openFrames.length ≤
          (exec ctx (n + 1) (.start params cache)).overlay.scopes.length - 1 := by
        show _ ≤ (exec ctx (n + 1) (.start params cache)).overlay.depth
        omega
      rw [deedsWhere_undone undone,
        deedsWhere_congr fun i (earlier : i < n) =>
          (kept_of_rising (by omega) (Nat.le_of_lt earlier)).trans
            (kept_of_all (Nat.le_of_lt earlier) more all)]
      exact whole.of_same same

theorem Journalled.returning (journalled : Journalled ctx (.start params cache) n)
    (returns : (exec ctx n (.start params cache)).control = .returning result) :
    Journalled ctx (.start params cache) (n + 1) := by
  have moved := transition_exec ctx n (.start params cache)
  have same := moved.overlay_returning returns
  have undone : deed? ctx (exec ctx n (.start params cache)) = none := by
    simp only [deed?, returns]
  have sound : ¬Doomed (exec ctx n (.start params cache)) :=
    not_doomed (by simp [returns])
  have before := even_start ctx params cache n
  have after := even_start ctx params cache (n + 1)
  have rising := Nat.le_of_eq (before.symm.trans ((congrArg Overlay.depth same).symm.trans after))
  intro inner within nonempty sound'
  rw [same] at within
  exact journalled.of_same rising undone sound within nonempty

theorem Journalled.running (journalled : Journalled ctx (.start params cache) n) {frame : Frame}
    (running : (exec ctx n (.start params cache)).control = .running frame) :
    Journalled ctx (.start params cache) (n + 1) := by
  have moved := transition_exec ctx n (.start params cache)
  have fits := refundsFit_exec ctx params cache n
  have sound : ¬Doomed (exec ctx n (.start params cache)) :=
    not_doomed (by simp [running])
  have before := even_start ctx params cache n
  have after := even_start ctx params cache (n + 1)
  have outer : (exec ctx (n + 1) (.start params cache)).overlay.outer =
      (exec ctx n (.start params cache)).overlay.outer := by
    rcases moved.shift with ⟨_, _, _, enters⟩ | ⟨_, same, _⟩ | ⟨_, _, _, _, halting, _⟩
    · rw [running] at enters
      cases enters
    · exact same
    · rw [running] at halting
      cases halting
  have depth : (exec ctx (n + 1) (.start params cache)).overlay.depth =
      (exec ctx n (.start params cache)).overlay.depth := congrArg List.length outer
  intro inner within nonempty sound'
  rcases Overlay.suffix_scopes within with inside | rfl
  · rw [outer] at inside
    exact journalled.of_outer before (by omega) inside nonempty
  · rcases moved.deed running with done | ⟨-, -, frame', cause, halting⟩
    · have whole := journalled _ (List.suffix_refl _) (List.cons_ne_nil _ _) fun _ => sound
      have next := whole.done fits done
      have count : (exec ctx (n + 1) (.start params cache)).overlay.scopes.length - 1 =
          (exec ctx n (.start params cache)).overlay.scopes.length - 1 := depth
      rw [count, deedsWhere_rising (by omega), if_pos (show _ ≤
        (exec ctx n (.start params cache)).overlay.scopes.length - 1 from before.symm.le)]
      exact next
    · exact absurd ⟨frame', _, halting, rfl⟩ (sound' rfl)

/-- The scope of a frame that halted has a scope around it. -/
theorem exists_enclosing {frame : Frame} {halt : Halt}
    (halting : (exec ctx n (.start params cache)).control = .halting frame halt) :
    ∃ parent rest, (exec ctx n (.start params cache)).overlay.outer = parent :: rest := by
  refine List.exists_cons_of_ne_nil fun none_left => ?_
  have even := even_start ctx params cache n
  simp only [Overlay.depth, none_left, openFrames, halting, List.length_nil, List.length_cons]
    at even
  omega

/-- When a frame succeeds, its scope and the next one become one. -/
theorem Journalled.succeeding (journalled : Journalled ctx (.start params cache) n) {frame : Frame}
    {halt : Halt} {settled : Overlay}
    (halting : (exec ctx n (.start params cache)).control = .halting frame halt)
    (ended : settle ctx.schedule frame.params (exec ctx n (.start params cache)).overlay
      (halt.result frame.gas) = (result, settled))
    (returns : (exec ctx (n + 1) (.start params cache)).control = .returning result)
    (closed : (exec ctx (n + 1) (.start params cache)).overlay = settled.commit)
    (succeeded : result.isSuccess = true) : Journalled ctx (.start params cache) (n + 1) := by
  obtain ⟨parent, rest, outer⟩ := exists_enclosing halting
  have undone : deed? ctx (exec ctx n (.start params cache)) = none := by
    simp only [deed?, halting]
  have before := even_start ctx params cache n
  have after := even_start ctx params cache (n + 1)
  have joined := closed.trans (Overlay.commit_of_outer ((outer_settle ended).trans outer))
  have depth : rest.length = (exec ctx (n + 1) (.start params cache)).openFrames.length := by
    rw [← after, joined]
    rfl
  intro inner within nonempty _
  rw [deedsWhere_undone undone]
  rw [joined] at within
  rcases Overlay.suffix_scopes within with inside | rfl
  · have short : inner.length ≤ rest.length := inside.length_le
    have positive := List.length_pos_iff.2 nonempty
    rw [deedsWhere_congr fun i earlier =>
      (kept_of_success returns succeeded (Nat.le_of_lt earlier)).1 (by omega)]
    refine journalled.enclosing ?_ nonempty
    rw [outer]
    exact inside.trans (List.suffix_cons _ _)
  · obtain ⟨same, sound⟩ := sameRecord_settle ended
    have whole := journalled _ (List.suffix_refl _) (List.cons_ne_nil _ _) fun _ => by
      rintro ⟨frame', halt', halting', doomed⟩
      rw [halting] at halting'
      cases halting'
      rw [sound succeeded] at doomed
      cases doomed
    have deep : (exec ctx n (.start params cache)).overlay.scopes.length - 1 =
        (exec ctx n (.start params cache)).openFrames.length := before
    have top : (Overlay.scopes ⟨parent.merge settled.current, rest⟩).length - 1 =
        (exec ctx (n + 1) (.start params cache)).openFrames.length := depth
    rw [← settled.flatten_commit, ← closed, joined] at same
    rw [deep] at whole
    rw [top, deedsWhere_congr fun i earlier =>
      (kept_of_success (d := 0) returns succeeded (Nat.le_of_lt earlier)).2]
    exact whole.of_same same

/-- When a frame fails, its scope is gone. -/
theorem Journalled.failing (journalled : Journalled ctx (.start params cache) n) {frame : Frame}
    {halt : Halt} {settled : Overlay}
    (halting : (exec ctx n (.start params cache)).control = .halting frame halt)
    (ended : settle ctx.schedule frame.params (exec ctx n (.start params cache)).overlay
      (halt.result frame.gas) = (result, settled))
    (returns : (exec ctx (n + 1) (.start params cache)).control = .returning result)
    (closed : (exec ctx (n + 1) (.start params cache)).overlay = settled.discard)
    (failed : result.isSuccess = false) : Journalled ctx (.start params cache) (n + 1) := by
  obtain ⟨parent, rest, outer⟩ := exists_enclosing halting
  have undone : deed? ctx (exec ctx n (.start params cache)) = none := by
    simp only [deed?, halting]
  have after := even_start ctx params cache (n + 1)
  have left := closed.trans (Overlay.discard_of_outer ((outer_settle ended).trans outer))
  have depth : rest.length = (exec ctx (n + 1) (.start params cache)).openFrames.length := by
    rw [← after, left]
    rfl
  obtain ⟨h, earlier, enters, other, ends⟩ := exists_entry halting
  have same := ends.returns
  rw [← exec_add, show h + (n - h + 1) = n + 1 by omega, returns] at same
  cases same
  intro inner within nonempty _
  rw [deedsWhere_undone undone]
  rw [left] at within
  have short : inner.length ≤ rest.length + 1 := within.length_le
  rw [deedsWhere_congr fun i before => kept_of_failure ⟨h, earlier, _, enters, ends⟩ failed
    (Nat.le_of_lt before) (by omega)]
  refine journalled.enclosing ?_ nonempty
  rw [outer]
  exact within

theorem Journalled.halting (journalled : Journalled ctx (.start params cache) n) {frame : Frame}
    {halt : Halt} (halting : (exec ctx n (.start params cache)).control = .halting frame halt) :
    Journalled ctx (.start params cache) (n + 1) := by
  have moved := transition_exec ctx n (.start params cache)
  obtain ⟨result, settled, ended, closed, returns⟩ := moved.closing halting
  cases succeeded : result.isSuccess with
  | true =>
      rw [if_pos succeeded] at closed
      exact journalled.succeeding halting ended returns closed succeeded
  | false =>
      rw [succeeded, if_neg Bool.false_ne_true] at closed
      exact journalled.failing halting ended returns closed succeeded

/-- The scopes are journals at all times. -/
theorem journalled_exec (ctx : Context) (params : Params) (cache : JumpCache) (n : Nat) :
    Journalled ctx (.start params cache) n := by
  induction n with
  | zero =>
      intro inner within nonempty _
      rcases List.suffix_cons_iff.1 within with rfl | inside
      · exact records_empty ctx.schedule
      · exact absurd (List.suffix_nil.1 inside) nonempty
  | succ n ih =>
      cases control : (exec ctx n (.start params cache)).control with
      | enter entered => exact ih.enter control
      | running frame => exact ih.running control
      | halting frame halt => exact ih.halting control
      | returning result => exact ih.returning control

end Run

/-! ## What is left in the end -/

/-- What was done by frames that survived in the first `n` steps of the run of `m`, in order. -/
noncomputable def survivingDeeds (ctx : Context) (m : Machine) (n : Nat) : List Deed :=
  deedsWhere ctx m (Survives ctx m) n

/-- When a run has come to its result, its scopes together record what survived. -/
theorem records_surviving {params : Params} {cache : JumpCache}
    (ended : (exec ctx n (.start params cache)).result? = some result) :
    Records ctx.schedule (exec ctx n (.start params cache)).overlay.flatten
      (survivingDeeds ctx (.start params cache) n) := by
  obtain ⟨returns, alone⟩ := result?_eq_some.1 ended
  have none_open : (exec ctx n (.start params cache)).openFrames = [] := by
    simp only [openFrames, returns, alone, List.map_nil]
  have even := even_start ctx params cache n
  rw [none_open] at even
  have sound : ¬Doomed (exec ctx n (.start params cache)) :=
    not_doomed (by simp [returns])
  have whole := journalled_exec ctx params cache n _ (List.suffix_refl _) (List.cons_ne_nil _ _)
    fun _ => sound
  have count : (exec ctx n (.start params cache)).overlay.scopes.length - 1 = 0 := even
  rw [count, deedsWhere_congr fun i before =>
    kept_iff_survives none_open (Nat.le_of_lt before)] at whole
  exact whole

theorem mem_survivingDeeds {deed : Deed} :
    deed ∈ survivingDeeds ctx m n ↔
      ∃ i < n, Survives ctx m i ∧ deed? ctx (exec ctx i m) = some deed := by
  simp [survivingDeeds, deedsWhere]

/-- When a run has come to its result, nothing more is done. -/
theorem mem_survivingDeeds_of_result (ended : (exec ctx n m).result? = some result) {k : Nat}
    {deed : Deed} (survived : deed ∈ survivingDeeds ctx m k) : deed ∈ survivingDeeds ctx m n := by
  obtain ⟨i, -, survives, did⟩ := mem_survivingDeeds.1 survived
  rcases Nat.lt_or_ge i n with before | after
  · exact mem_survivingDeeds.2 ⟨i, before, survives, did⟩
  · obtain ⟨j, rfl⟩ := Nat.exists_eq_add_of_le after
    rw [exec_add, exec_of_result ended] at did
    simp only [deed?, (result?_eq_some.1 ended).1] at did
    cases did

/-- The accounts that a transaction destroys are those that a frame destroyed that survived. -/
theorem mem_suicides_iff {σ : Type} {observe : σ → Event → σ} {cache cache' : JumpCache}
    {params : Params} {seen seen' : σ} {outcome : Outcome}
    (ran : executeObserved ctx observe cache params seen = .ok (outcome, cache', seen'))
    (a : Address) :
    a ∈ outcome.effects.suicides ↔ ∃ k beneficiary,
      Deed.destroyed a beneficiary ∈ survivingDeeds ctx (.start params cache) k := by
  obtain ⟨n, ended, effects⟩ := executeObserved_eq_ok ran
  rw [effects, (records_surviving ended).suicides]
  constructor
  · rintro ⟨beneficiary, survived⟩
    exact ⟨n, beneficiary, survived⟩
  · rintro ⟨k, beneficiary, survived⟩
    exact ⟨beneficiary, mem_survivingDeeds_of_result ended survived⟩

/-- The effects of a transaction record what was done by frames that survived: their log entries in
the order in which they were made, the accounts that they destroyed, and what is given back once for
every such account and for every slot that they cleared. -/
theorem committed_journal {σ : Type} {observe : σ → Event → σ} {cache cache' : JumpCache}
    {params : Params} {seen seen' : σ} {outcome : Outcome}
    (ran : executeObserved ctx observe cache params seen = .ok (outcome, cache', seen')) :
    ∃ n, (exec ctx n (.start params cache)).result? = some outcome.result ∧
      Records ctx.schedule outcome.effects (survivingDeeds ctx (.start params cache) n) := by
  obtain ⟨n, ended, effects⟩ := executeObserved_eq_ok ran
  refine ⟨n, ended, ?_⟩
  rw [effects]
  exact records_surviving ended

/-- The code of an account that makes a log entry and then destroys itself. -/
def parting : Bytes := [0x60, 0x00, 0x60, 0x00, 0xa0, 0x60, 0x09, 0xff]

/-- A transaction that calls the account 7 three times, the first time with gas for no more than the
log entry. -/
def insisting : Params where
  address := ⟨1⟩
  sender := ⟨2⟩
  origin := ⟨2⟩
  gas := 100000
  code :=
    [0x60, 0x00, 0x80, 0x80, 0x80, 0x80, 0x60, 0x07, 0x61, 0x01, 0x7e, 0xf1,
      0x60, 0x00, 0x80, 0x80, 0x80, 0x80, 0x60, 0x07, 0x61, 0x03, 0xe8, 0xf1,
      0x60, 0x00, 0x80, 0x80, 0x80, 0x80, 0x60, 0x07, 0x61, 0x03, 0xe8, 0xf1]

/-- The entry of the first call is gone, and the account is paid for once. -/
theorem committed_journal_insisting :
    ∃ outcome cache n,
      executeObserved (.hosting 0 ⟨7⟩ parting) (fun _ _ => ()) ∅ insisting () =
          .ok (outcome, cache, ()) ∧
        outcome.effects.logs.toList = [⟨⟨7⟩, [], []⟩, ⟨⟨7⟩, [], []⟩] ∧
        outcome.effects.suicides.toList = [⟨7⟩] ∧ outcome.effects.refund = 24000 ∧
        (exec (.hosting 0 ⟨7⟩ parting) n (.start insisting ∅)).result? = some outcome.result ∧
        Records .frontier outcome.effects
          (survivingDeeds (.hosting 0 ⟨7⟩ parting) (.start insisting ∅) n) := by
  have evaluated :
      (match executeObserved (.hosting 0 ⟨7⟩ parting) (fun _ _ => ()) ∅ insisting () with
      | .ok (outcome, _) =>
          decide (outcome.effects.logs.toList = [⟨⟨7⟩, [], []⟩, ⟨⟨7⟩, [], []⟩] ∧
            outcome.effects.suicides.toList = [⟨7⟩] ∧ outcome.effects.refund = 24000)
      | .error _ => false) = true := by
    decide +kernel
  cases ran : executeObserved (.hosting 0 ⟨7⟩ parting) (fun _ _ => ()) ∅ insisting () with
  | error e =>
      rw [ran] at evaluated
      cases evaluated
  | ok run =>
      obtain ⟨outcome, cache, seen⟩ := run
      rw [ran] at evaluated
      obtain ⟨logs, suicides, refund⟩ := of_decide_eq_true evaluated
      obtain ⟨n, ended, records⟩ := committed_journal ran
      exact ⟨outcome, cache, n, rfl, logs, suicides, refund, ended, records⟩

end Machine

end EvmLedger.Vm
