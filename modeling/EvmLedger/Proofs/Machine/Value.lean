/-
# EvmLedger.Proofs.Machine.Value -- value is not minted

Only two things move value: the opening of a frame, which pays for it, and a
self-destruction.  Both move what is there and refuse what would not fit, so over
any accounts among which the value moves the sum of the balances is kept -- with
one exception: an account that destroys itself for its own benefit loses its
funds.

The invariant is about every list of scopes that can come to the top again
(`Transition.heldBy`): a scope that is committed is merged into the next one, a
scope that is discarded uncovers it, and in both cases the sum that is read then
was read before.
-/
import EvmLedger.Proofs.Machine.Run
import EvmLedger.Proofs.Overlay.Balance
import Mathlib.Tactic.IntervalCases

namespace EvmLedger.Vm

set_option autoImplicit false

/-- No account destroys itself for its own benefit. -/
def Spares (events : List Event) : Prop :=
  ∀ depth address, Event.selfDestruct depth address address ∉ events

variable {ctx : Context} {accounts : Finset Address}

/-- Of what an instruction writes only a self-destruction moves value. -/
theorem Step.Footprint.heldBy {s t : Exec} {instruction : Option Instruction}
    (footprint : Footprint ctx s t instruction)
    (counted : ∀ a, (t.overlay.balance? a).isSome → a ∈ accounts) :
    heldBy ctx.host accounts t.overlay.scopes ≤ heldBy ctx.host accounts s.overlay.scopes ∧
      (Spares t.events →
        heldBy ctx.host accounts t.overlay.scopes = heldBy ctx.host accounts s.overlay.scopes) := by
  have quiet : ∀ o : Overlay, o.outer = s.overlay.outer →
      o.current.balances = s.overlay.current.balances →
      Vm.heldBy ctx.host accounts o.scopes = Vm.heldBy ctx.host accounts s.overlay.scopes :=
    fun _ outer balances => Overlay.heldBy_of_balances outer balances
  have refunded : ∀ (reason : Prop) [Decidable reason] (amount : Nat),
      (s.overlay.refundIf reason amount).current.balances = s.overlay.current.balances := by
    intro reason _ amount
    unfold Overlay.refundIf
    split
    · rfl
    · rfl
  have outer := footprint.outer
  cases footprint with
  | nothing same => rw [same]; exact ⟨Nat.le_refl _, fun _ => rfl⟩
  | slot key value refund _ _ wrote =>
      have same := quiet t.overlay outer (by rw [wrote]; exact refunded _ _)
      exact ⟨Nat.le_of_eq same, fun _ => same⟩
  | log count entry _ _ wrote =>
      have same := quiet t.overlay outer (by rw [wrote]; rfl)
      exact ⟨Nat.le_of_eq same, fun _ => same⟩
  | nonce _ wrote =>
      have same := quiet t.overlay outer (by rw [wrote]; rfl)
      exact ⟨Nat.le_of_eq same, fun _ => same⟩
  | refused _ wrote =>
      have same := quiet t.overlay outer (by rw [wrote]; exact refunded _ _)
      exact ⟨Nat.le_of_eq same, fun _ => same⟩
  | destroyed beneficiary moved _ handed wrote reported =>
      rw [wrote] at counted ⊢
      obtain ⟨less, same⟩ := Overlay.heldBy_handOver handed counted
      have before := quiet (s.overlay.refundSuicide s.frame.params.address
        ctx.schedule.suicideRefund) (Overlay.outer_refundSuicide _ _ _) (refunded _ _)
      rw [before] at less same
      refine ⟨less, fun spares => same ?_⟩
      rintro rfl
      exact spares _ _ reported

namespace Machine

/-- Creating code moves no value. -/
theorem balances_settle {schedule : Schedule} {params : Params} {overlay settled : Overlay}
    {result result' : Result} (ended : settle schedule params overlay result = (result', settled)) :
    settled.current.balances = overlay.current.balances := by
  rcases settle_eq ended with ⟨rfl, _⟩ | ⟨data, gas, _, _, rfl⟩
  · rfl
  · rfl

/-- No more is read through `inner` than through some scopes that `scopes` end with, and just as
much as that if value is spared. -/
def ReadBefore (host : Host) (accounts : Finset Address) (spared : Prop)
    (scopes inner : List Effects) : Prop :=
  ∃ before, before <:+ scopes ∧ heldBy host accounts inner ≤ heldBy host accounts before ∧
    (spared → heldBy host accounts inner = heldBy host accounts before)

section ReadBefore

variable {host : Host} {spared : Prop} {scopes inner : List Effects}

theorem ReadBefore.of_eq {before : List Effects} (within : before <:+ scopes)
    (same : heldBy host accounts inner = heldBy host accounts before) :
    ReadBefore host accounts spared scopes inner :=
  ⟨before, within, Nat.le_of_eq same, fun _ => same⟩

theorem ReadBefore.of_suffix (within : inner <:+ scopes) :
    ReadBefore host accounts spared scopes inner :=
  .of_eq within rfl

/-- What an instruction wrote is on top, and the other scopes are as they were. -/
theorem ReadBefore.of_footprint {s t : Exec} {instruction : Option Instruction}
    (footprint : Step.Footprint ctx s t instruction)
    (counted : ∀ a, (t.overlay.balance? a).isSome → a ∈ accounts)
    (within : inner <:+ t.overlay.scopes) :
    ReadBefore ctx.host accounts (Spares t.events.reverse) s.overlay.scopes inner := by
  rcases Overlay.suffix_scopes within with outer | rfl
  · rw [footprint.outer] at outer
    exact .of_suffix (outer.trans (List.suffix_cons _ _))
  · obtain ⟨less, same⟩ := footprint.heldBy counted
    refine ⟨s.overlay.scopes, List.suffix_refl _, less, fun spared => same ?_⟩
    intro depth address told
    exact spared depth address (List.mem_reverse.2 told)

end ReadBefore

/-- Whatever scopes may come to the top after a step, what is read through them was read before
it. -/
theorem Transition.readBefore {m m' : Machine} {events : List Event}
    (moved : Transition ctx m m' events)
    (counted : ∀ a, (m'.overlay.balance? a).isSome → a ∈ accounts) {inner : List Effects}
    (within : inner <:+ m'.overlay.scopes) :
    ReadBefore ctx.host accounts (Spares events) m.overlay.scopes inner := by
  cases moved with
  | opened prepared =>
      rcases Overlay.suffix_scopes within with outer | rfl
      · rw [outer_prepare prepared, Overlay.outer_enter] at outer
        exact .of_suffix outer
      · refine .of_eq (List.suffix_refl _) (Eq.trans ?_ (heldBy_empty _))
        rcases prepare_eq_ok prepared with rfl | paid
        · rfl
        · have kept := Overlay.heldBy_transfer paid counted
          exact kept
  | rejected refused => exact .of_suffix within
  | advanced fetched ran | suspended fetched ran =>
      exact .of_footprint ((Step.instruction_effect _).of_ok ran).footprint counted within
  | halted fetched ran =>
      exact .of_footprint ((Step.instruction_effect _).of_error ran).footprint counted within
  | @closed scene frame halt result settled ended =>
      have outer := outer_settle ended
      have whole : heldBy ctx.host accounts settled.scopes =
          heldBy ctx.host accounts scene.overlay.scopes :=
        Overlay.heldBy_of_balances outer (balances_settle ended)
      have enclosing : scene.overlay.outer <:+ scene.overlay.scopes := List.suffix_cons _ _
      cases succeeded : result.isSuccess with
      | true =>
          rw [succeeded, if_pos rfl] at within
          rcases Overlay.heldBy_commit within with inside | same
          · rw [outer] at inside
            exact .of_suffix (inside.trans enclosing)
          · exact .of_eq (List.suffix_refl _) (same.trans whole)
      | false =>
          rw [succeeded, if_neg Bool.false_ne_true] at within
          rcases Overlay.heldBy_discard within with inside | same
          · rw [outer] at inside
            exact .of_suffix (inside.trans enclosing)
          · exact .of_eq (List.nil_suffix) same
  | ended exhausted => exact .of_suffix within
  | resumed ready => exact .of_suffix within
  | overfull failed => exact .of_suffix within
  | idle => exact .of_suffix within

/-! ## Whole runs -/

/-- All along a run, whatever scopes may come to the top. -/
theorem readBefore_exec {params : Params} {cache : JumpCache} {n : Nat}
    (counted : ∀ k ≤ n, ∀ a, ((exec ctx k (.start params cache)).overlay.balance? a).isSome →
      a ∈ accounts) {inner : List Effects}
    (within : inner <:+ (exec ctx n (.start params cache)).overlay.scopes) :
    heldBy ctx.host accounts inner ≤ heldBy ctx.host accounts [] ∧
      ((∀ k < n, Spares (told ctx (exec ctx k (.start params cache)))) →
        heldBy ctx.host accounts inner = heldBy ctx.host accounts []) := by
  induction n generalizing inner with
  | zero =>
      have untouched : heldBy ctx.host accounts inner = heldBy ctx.host accounts [] := by
        rcases Overlay.suffix_scopes within with outer | rfl
        · rw [List.suffix_nil.1 outer]
        · exact heldBy_empty []
      exact ⟨Nat.le_of_eq untouched, fun _ => untouched⟩
  | succ n ih =>
      have moved := transition_exec ctx n (.start params cache)
      obtain ⟨before, earlier, less, same⟩ :=
        moved.readBefore (counted (n + 1) (Nat.le_refl _)) within
      obtain ⟨bounded, kept⟩ := ih (fun k le => counted k (Nat.le_succ_of_le le)) earlier
      refine ⟨Nat.le_trans less bounded, fun spared => ?_⟩
      rw [same (spared n (Nat.lt_succ_self n))]
      exact kept fun k lt => spared k (Nat.lt_succ_of_lt lt)

/-- Value is not minted.  At any time of a run, the accounts of a set with all those whose balance
has been written so far hold together at most what they held on the host, and just as much as long
as no account has destroyed itself for its own benefit. -/
theorem value_conserved (ctx : Context) (params : Params) (cache : JumpCache)
    (accounts : Finset Address) (n : Nat)
    (counted : ∀ k ≤ n, ∀ a, ((exec ctx k (.start params cache)).overlay.balance? a).isSome →
      a ∈ accounts) :
    ∑ a ∈ accounts, ((exec ctx n (.start params cache)).overlay.balance ctx.host a).toNat ≤
        ∑ a ∈ accounts, (ctx.host.balance a).toNat ∧
      ((∀ k < n, ∀ depth a,
          Event.selfDestruct depth a a ∉ told ctx (exec ctx k (.start params cache))) →
        ∑ a ∈ accounts, ((exec ctx n (.start params cache)).overlay.balance ctx.host a).toNat =
          ∑ a ∈ accounts, (ctx.host.balance a).toNat) :=
  readBefore_exec counted (List.suffix_refl _)

/-- A frame that is paid five units by its sender and then destroys itself for its own benefit. -/
def selfish : Params where
  address := ⟨2⟩
  sender := ⟨1⟩
  origin := ⟨1⟩
  gas := 100
  value := 5
  code := [0x30, 0xff]

/-- The five units come to fourteen with what the payee had, and they are gone with the rest. -/
theorem value_conserved_selfish :
    (∀ k ≤ 3, ∀ a,
        ((exec (.uniform 9) k (.start selfish ∅)).overlay.balance? a).isSome →
        a ∈ ({⟨1⟩, ⟨2⟩} : Finset Address)) ∧
      (exec (.uniform 9) 2 (.start selfish ∅)).overlay.balance (Context.uniform 9).host ⟨2⟩ = 14 ∧
      (exec (.uniform 9) 3 (.start selfish ∅)).overlay.balance (Context.uniform 9).host ⟨2⟩ = 0 ∧
      ∑ a ∈ ({⟨1⟩, ⟨2⟩} : Finset Address),
        ((exec (.uniform 9) 3 (.start selfish ∅)).overlay.balance (Context.uniform 9).host a).toNat ≤
          ∑ a ∈ ({⟨1⟩, ⟨2⟩} : Finset Address), ((Context.uniform 9).host.balance a).toNat := by
  have ready : prepare (Context.uniform 9).host ({} : Overlay).enter selfish =
      .ok ((({} : Overlay).enter.setBalance ⟨1⟩ 4).setBalance ⟨2⟩ 14) := rfl
  have opened : next (.uniform 9) (.start selfish ∅) = _ := next_enter ready
  have counted : ∀ k ≤ 3, ∀ a,
      ((exec (.uniform 9) k (.start selfish ∅)).overlay.balance? a).isSome →
      a ∈ ({⟨1⟩, ⟨2⟩} : Finset Address) := by
    intro k le a written
    rw [Finset.mem_insert, Finset.mem_singleton]
    have sent : (((({} : Overlay).enter.setBalance ⟨1⟩ 4).setBalance ⟨2⟩ 14).balance? a).isSome →
        a = ⟨1⟩ ∨ a = ⟨2⟩ := by
      intro written
      rcases Overlay.written_setBalance written with payee | written
      · exact Or.inr payee
      · rcases Overlay.written_setBalance written with payer | written
        · exact Or.inl payer
        · cases written
    cases k with
    | zero => cases written
    | succ k =>
        have early : k < 3 := le
        rw [exec_succ_first, opened] at written
        interval_cases k
        · exact sent written
        · exact sent written
        · have burnt : ((((({} : Overlay).enter.setBalance ⟨1⟩ 4).setBalance ⟨2⟩ 14).setBalance
              ⟨2⟩ 0).balance? a).isSome := written
          rcases Overlay.written_setBalance burnt with payee | written
          · exact Or.inr payee
          · exact sent written
  refine ⟨counted, ?_, ?_, (value_conserved _ _ _ _ _ counted).1⟩
  · rw [exec_succ_first, opened]
    decide +kernel
  · rw [exec_succ_first, opened]
    decide +kernel

end Machine

end EvmLedger.Vm
