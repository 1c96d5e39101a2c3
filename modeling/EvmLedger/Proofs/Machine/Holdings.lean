/-
# EvmLedger.Proofs.Machine.Holdings -- what everybody holds together

A run mints nothing (`Proofs.Machine.Value`).  Here the accounts that count are all
accounts there are, so nothing can be moved out of sight, and what is lost can be told
from the effects: it is lost by accounts that destroy themselves, in frames that do not
fail.

The invariant is about the scopes that may come to the top, as it is for value.  Where
none of them knows of an account that was destroyed (`Intact`), just as much is read
through them as is held on the host (`holdings_exec_of_intact`).
-/
import EvmLedger.Proofs.Machine.Value
import EvmLedger.Proofs.Overlay.Merge
import Mathlib.Data.Fintype.EquivFin

namespace EvmLedger

set_option autoImplicit false

/-- There are as many addresses as there are numbers of their length. -/
def Address.equivFin : Address ≃ Fin (2 ^ 160) where
  toFun a := a.bits.toFin
  invFun i := ⟨.ofFin i⟩
  left_inv _ := rfl
  right_inv _ := rfl

noncomputable instance : Fintype Address := .ofEquiv _ Address.equivFin.symm

namespace Vm

/-- No account is known to be destroyed. -/
def Intact (scopes : List Effects) : Prop :=
  ∀ e ∈ scopes, ∀ a, a ∉ e.suicides

theorem Intact.of_suffix {scopes inner : List Effects} (intact : Intact scopes)
    (within : inner <:+ scopes) : Intact inner :=
  fun e among => intact e (within.subset among)

namespace Overlay

variable {host : Host} {accounts : Finset Address} {o o' : Overlay} {inner : List Effects}

/-- Other writes destroy nothing. -/
theorem intact_of_suicides (outer : o'.outer = o.outer)
    (suicides : o'.current.suicides = o.current.suicides) (intact : Intact o'.scopes) :
    Intact o.scopes := by
  intro e among
  rw [scopes_eq] at among
  rcases List.mem_cons.1 among with rfl | further
  · rw [← suicides]
    exact intact _ List.mem_cons_self
  · rw [← outer] at further
    exact intact e (List.mem_cons_of_mem _ further)

/-- Scopes that are merged know what each of them knew. -/
theorem intact_commit (within : inner <:+ o.commit.scopes) (intact : Intact inner) :
    inner <:+ o.outer ∨ Intact o.scopes ∧
      heldBy host accounts inner = heldBy host accounts o.scopes := by
  have read : inner <:+ o.outer ∨ heldBy host accounts inner = heldBy host accounts o.scopes :=
    heldBy_commit within
  rcases read with outer | same
  · exact Or.inl outer
  · cases nested : o.outer with
    | nil =>
        have root : o.commit = o := by
          unfold commit
          rw [nested]
        rw [root] at within
        rcases suffix_scopes within with outer | rfl
        · rw [nested] at outer
          exact Or.inl outer
        · exact Or.inr ⟨intact, same⟩
    | cons parent rest =>
        rw [commit_of_outer nested] at within
        rcases suffix_scopes within with outer | rfl
        · exact Or.inl (outer.trans (List.suffix_cons parent rest))
        · refine Or.inr ⟨?_, same⟩
          have joined : ∀ a, a ∉ parent.suicides ∪ o.current.suicides :=
            intact _ List.mem_cons_self
          simp only [Std.ExtTreeSet.mem_union_iff, not_or] at joined
          intro e among
          rw [scopes_eq, nested, List.mem_cons, List.mem_cons] at among
          rcases among with rfl | rfl | further
          · exact fun a => (joined a).2
          · exact fun a => (joined a).1
          · exact intact e (List.mem_cons_of_mem _ further)

/-- Scopes merged into one are read as before. -/
theorem heldBy_flatten (o : Overlay) :
    heldBy host accounts [o.flatten] = heldBy host accounts o.scopes := by
  refine Finset.sum_congr rfl fun a _ => ?_
  show _ = (o.balance host a).toNat
  rw [balance_eq_flatten]
  simp [balanceIn?]

/-- What scopes know of accounts that were destroyed is known when they are merged into one. -/
theorem intact_of_flatten (none_destroyed : ∀ a, a ∉ o.flatten.suicides) : Intact o.scopes := by
  intro e among a known
  have any : o.hasSuicided a = true := List.any_eq_true.2 ⟨e, among, known⟩
  rw [hasSuicided_eq_flatten] at any
  exact none_destroyed a any

end Overlay

variable {ctx : Context} {inner : List Effects}

/-- What everybody holds together, read through a list of scopes. -/
noncomputable abbrev holdings (ctx : Context) (scopes : List Effects) : Nat :=
  heldBy ctx.host Finset.univ scopes

/-- Only an account that destroys itself loses its funds. -/
theorem Step.Footprint.holdings_of_intact {s t : Exec} {instruction : Option Instruction}
    (footprint : Footprint ctx s t instruction) (intact : Intact t.overlay.scopes) :
    Intact s.overlay.scopes ∧ holdings ctx t.overlay.scopes = holdings ctx s.overlay.scopes := by
  have of_same : t.overlay.current.suicides = s.overlay.current.suicides →
      t.overlay.current.balances = s.overlay.current.balances →
      Intact s.overlay.scopes ∧
        holdings ctx t.overlay.scopes = holdings ctx s.overlay.scopes :=
    fun suicides balances => ⟨Overlay.intact_of_suicides footprint.outer suicides intact,
      Overlay.heldBy_of_balances footprint.outer balances⟩
  have refunded : ∀ (reason : Prop) [Decidable reason] (amount : Nat),
      (s.overlay.refundIf reason amount).current.suicides = s.overlay.current.suicides ∧
        (s.overlay.refundIf reason amount).current.balances = s.overlay.current.balances := by
    intro reason _ amount
    unfold Overlay.refundIf
    split
    · exact ⟨rfl, rfl⟩
    · exact ⟨rfl, rfl⟩
  cases footprint with
  | nothing same => exact of_same (by rw [same]) (by rw [same])
  | slot key value refund _ _ wrote =>
      refine of_same ?_ ?_
      · rw [wrote]
        exact (refunded _ _).1
      · rw [wrote]
        exact (refunded _ _).2
  | log count entry _ _ wrote | nonce _ wrote =>
      refine of_same ?_ ?_
      · rw [wrote]
        rfl
      · rw [wrote]
        rfl
  | refused _ wrote =>
      refine of_same ?_ ?_
      · rw [wrote]
        exact (refunded _ _).1
      · rw [wrote]
        exact (refunded _ _).2
  | destroyed beneficiary moved _ _ wrote _ =>
      refine absurd ?_ (intact t.overlay.current List.mem_cons_self s.frame.params.address)
      rw [wrote]
      exact Std.ExtTreeSet.mem_insert_self

namespace Machine

/-- What is read through scopes that may come to the top was read before the step, and if they are
intact they were. -/
theorem Transition.holdings_of_intact {m m' : Machine} {events : List Event}
    (moved : Transition ctx m m' events) (within : inner <:+ m'.overlay.scopes)
    (intact : Intact inner) :
    ∃ before, before <:+ m.overlay.scopes ∧ Intact before ∧
      holdings ctx inner = holdings ctx before := by
  have of_suffix : inner <:+ m.overlay.scopes → ∃ before, before <:+ m.overlay.scopes ∧
      Intact before ∧ holdings ctx inner = holdings ctx before :=
    fun within => ⟨inner, within, intact, rfl⟩
  have of_footprint : ∀ {s t : Exec} {instruction : Option Instruction},
      Step.Footprint ctx s t instruction → inner <:+ t.overlay.scopes →
      s.overlay.scopes = m.overlay.scopes → ∃ before, before <:+ m.overlay.scopes ∧
        Intact before ∧ holdings ctx inner = holdings ctx before := by
    intro s t instruction footprint within start
    rw [← start]
    rcases Overlay.suffix_scopes within with outer | rfl
    · rw [footprint.outer] at outer
      exact ⟨inner, outer.trans (List.suffix_cons _ _), intact, rfl⟩
    · obtain ⟨intact_before, same⟩ := footprint.holdings_of_intact intact
      exact ⟨s.overlay.scopes, List.suffix_refl _, intact_before, same⟩
  cases moved with
  | @opened scene params overlay jumps cache events prepared known =>
      rcases Overlay.suffix_scopes within with outer | rfl
      · rw [outer_prepare prepared, Overlay.outer_enter] at outer
        exact of_suffix outer
      · have enclosing : scene.overlay.scopes <:+ overlay.scopes := by
          rw [Overlay.scopes_eq overlay, outer_prepare prepared, Overlay.outer_enter]
          exact List.suffix_cons _ _
        refine ⟨scene.overlay.scopes, List.suffix_refl _, intact.of_suffix enclosing, ?_⟩
        refine Eq.trans ?_ (heldBy_empty _)
        rcases prepare_eq_ok prepared with rfl | paid
        · rfl
        · have kept := Overlay.heldBy_transfer paid fun a _ => Finset.mem_univ a
          exact kept
  | advanced fetched ran | suspended fetched ran =>
      exact of_footprint ((Step.instruction_effect _).of_ok ran).footprint within rfl
  | halted fetched ran =>
      exact of_footprint ((Step.instruction_effect _).of_error ran).footprint within rfl
  | @closed scene frame halt result settled ended =>
      have outer := outer_settle ended
      have suicides : settled.current.suicides = scene.overlay.current.suicides := by
        rcases settle_eq ended with ⟨rfl, _⟩ | ⟨data, gas, _, _, rfl⟩
        · rfl
        · rfl
      have enclosing : settled.outer <:+ scene.overlay.scopes := by
        rw [outer]
        exact List.suffix_cons _ _
      cases succeeded : result.isSuccess with
      | true =>
          rw [succeeded, if_pos rfl] at within
          have joined : inner <:+ settled.outer ∨ Intact settled.scopes ∧
              holdings ctx inner = holdings ctx settled.scopes :=
            Overlay.intact_commit within intact
          rcases joined with inside | ⟨whole, same⟩
          · exact of_suffix (inside.trans enclosing)
          · exact ⟨scene.overlay.scopes, List.suffix_refl _,
              Overlay.intact_of_suicides outer suicides whole,
              same.trans (Overlay.heldBy_of_balances outer (balances_settle ended))⟩
      | false =>
          rw [succeeded, if_neg Bool.false_ne_true] at within
          rcases Overlay.heldBy_discard within with inside | same
          · exact of_suffix (inside.trans enclosing)
          · exact ⟨[], List.nil_suffix, by simp [Intact], same⟩
  | _ => exact of_suffix within

/-- All along a run, whatever scopes may come to the top. -/
theorem holdings_exec_of_intact (ctx : Context) (params : Params) (cache : JumpCache) (n : Nat)
    (within : inner <:+ (exec ctx n (.start params cache)).overlay.scopes)
    (intact : Intact inner) : holdings ctx inner = holdings ctx [] := by
  induction n generalizing inner with
  | zero =>
      rcases Overlay.suffix_scopes within with outer | rfl
      · rw [List.suffix_nil.1 outer]
      · exact heldBy_empty []
  | succ n ih =>
      have moved := transition_exec ctx n (.start params cache)
      obtain ⟨before, earlier, intact_before, same⟩ := moved.holdings_of_intact within intact
      rw [same]
      exact ih earlier intact_before

/-- The effects of a transaction leave everybody together with at most what there was, and with just
as much if they destroy no account. -/
theorem holdings_effects {σ : Type} {observe : σ → Event → σ} {cache cache' : JumpCache}
    {params : Params} {seen seen' : σ} {outcome : Outcome}
    (ran : executeObserved ctx observe cache params seen = .ok (outcome, cache', seen')) :
    holdings ctx [outcome.effects] ≤ holdings ctx [] ∧
      ((∀ a, a ∉ outcome.effects.suicides) →
        holdings ctx [outcome.effects] = holdings ctx []) := by
  obtain ⟨n, -, effects⟩ := executeObserved_eq_ok ran
  have read : holdings ctx [outcome.effects] =
      holdings ctx (exec ctx n (.start params cache)).overlay.scopes := by
    rw [effects]
    exact Overlay.heldBy_flatten _
  rw [read]
  constructor
  · exact (readBefore_exec (fun _ _ a _ => Finset.mem_univ a) (List.suffix_refl _)).1
  · intro none_destroyed
    rw [effects] at none_destroyed
    exact holdings_exec_of_intact ctx params cache n (List.suffix_refl _)
      (Overlay.intact_of_flatten none_destroyed)

end Machine

end Vm

end EvmLedger
