/-
# EvmLedger.Proofs.Step.Footprint -- what an instruction writes

The inversion law of the instruction set as far as the overlay is concerned.
`Footprint` lists what can be there after an instruction that was not there
before: a slot, a log entry, a nonce, a refund, or a self-destruction with the
move of all funds.  Each is one write to the innermost scope, is made in the
name of the account that the frame acts for, and asks that the frame is not
static.  `instruction_effect` says that there is nothing else, for every byte of
code and whether the frame goes on, starts another one or halts.

Everything that is known about scopes during a run is derived from this relation
and not from the instructions.
-/
import EvmLedger.Proofs.Overlay
import EvmLedger.Proofs.Step.Charge

namespace EvmLedger.Vm.Step

set_option autoImplicit false

/-- The overlay after an instruction, by what the instruction wrote. -/
inductive Footprint (ctx : Context) (s t : Exec) : Option Instruction → Prop
  | nothing {instruction : Option Instruction} (same : t.overlay = s.overlay) :
      Footprint ctx s t instruction
  | slot (key value : Word) (refund : Nat) (free : s.frame.params.isStatic = false)
      (earned : refund = (ctx.schedule.sstoreCost
        (s.overlay.storage ctx.host s.frame.params.address key) value).2)
      (wrote : t.overlay = (s.overlay.refundIf (0 < refund) refund).setStorage
        s.frame.params.address key value) :
      Footprint ctx s t (some .sstore)
  | log (count : Fin 5) (entry : Log) (free : s.frame.params.isStatic = false)
      (own : entry.address = s.frame.params.address)
      (wrote : t.overlay = s.overlay.addLog entry) :
      Footprint ctx s t (some (.log count))
  | nonce (free : s.frame.params.isStatic = false)
      (wrote : t.overlay = s.overlay.incrementNonce ctx.host s.frame.params.address) :
      Footprint ctx s t (some (.create .create))
  /-- a self-destruction whose beneficiary could not take the funds -/
  | refused (free : s.frame.params.isStatic = false)
      (wrote : t.overlay = s.overlay.refundSuicide s.frame.params.address
        ctx.schedule.suicideRefund) :
      Footprint ctx s t (some .selfDestruct)
  | destroyed (beneficiary : Address) (moved : Overlay) (free : s.frame.params.isStatic = false)
      (handed : (s.overlay.refundSuicide s.frame.params.address ctx.schedule.suicideRefund).handOver
        ctx.host s.frame.params.address beneficiary = .ok moved)
      (wrote : t.overlay = moved.suicide s.frame.params.address)
      (reported : Event.selfDestruct s.frame.depth s.frame.params.address beneficiary ∈ t.events) :
      Footprint ctx s t (some .selfDestruct)

/-- Enclosing scopes are never written to. -/
theorem Footprint.outer {ctx : Context} {s t : Exec} {instruction : Option Instruction}
    (footprint : Footprint ctx s t instruction) : t.overlay.outer = s.overlay.outer := by
  cases footprint with
  | nothing same => rw [same]
  | slot key value refund _ _ wrote => simp [wrote]
  | log count entry _ _ wrote => simp [wrote]
  | nonce _ wrote => simp [wrote]
  | refused _ wrote => simp [wrote]
  | destroyed beneficiary moved _ handed wrote _ =>
      rw [wrote, Overlay.outer_suicide, Overlay.outer_handOver handed, Overlay.outer_refundSuicide]

/-- A static frame writes nothing. -/
theorem Footprint.of_static {ctx : Context} {s t : Exec} {instruction : Option Instruction}
    (footprint : Footprint ctx s t instruction) (static : s.frame.params.isStatic = true) :
    t.overlay = s.overlay := by
  cases footprint with
  | nothing same => exact same
  | slot _ _ _ free | log _ _ free | nonce free | refused free | destroyed _ _ free =>
      rw [static] at free
      cases free

/-- What an instruction adds to the gas to be given back stays an amount. -/
theorem Footprint.refundsFit {ctx : Context} {s t : Exec} {instruction : Option Instruction}
    (footprint : Footprint ctx s t instruction) (fits : s.overlay.RefundsFit) :
    t.overlay.RefundsFit := by
  cases footprint with
  | nothing same => rw [same]; exact fits
  | slot key value refund _ _ wrote =>
      have before := fits.refundIf (0 < refund) refund
      rw [wrote]
      exact before.of_current rfl before.current
  | log count entry _ _ wrote => rw [wrote]; exact fits.of_current rfl fits.current
  | nonce _ wrote => rw [wrote]; exact fits.of_current rfl fits.current
  | refused _ wrote => rw [wrote]; exact fits.refundIf _ _
  | destroyed beneficiary moved _ handed wrote _ =>
      have after := (fits.refundIf _ _).handOver handed
      rw [wrote]
      exact after.of_current rfl after.current

/-- After an instruction the frame is the same activation and the overlay has its footprint. -/
structure Effect (ctx : Context) (instruction : Option Instruction) (s t : Exec) : Prop where
  frame : s.frame.Continues t.frame
  footprint : Footprint ctx s t instruction

variable {ctx : Context} {s : Exec}

theorem Quiet.effect {t : Exec} (quiet : Quiet s t) (instruction : Option Instruction) :
    Effect ctx instruction s t :=
  ⟨quiet.frame, .nothing quiet.overlay⟩

theorem Respects.effect {x : Step Flow} (respects : Respects Quiet x)
    (instruction : Option Instruction) :
    Meets x s (fun _ => Effect ctx instruction s) (fun _ => Effect ctx instruction s) :=
  respects.meets (fun _ _ quiet => quiet.effect _) (fun _ _ quiet => quiet.effect _)

/-! ## Instructions that reach out -/

theorem storeSlot_effect :
    Meets (storeSlot ctx) s (fun _ => Effect ctx (some .sstore) s)
      (fun _ => Effect ctx (some .sstore) s) := by
  have stop : ∀ (_ : Halt) (u : Exec), Local s u → Effect ctx (some .sstore) s u :=
    fun _ _ before => before.effect _
  unfold storeSlot
  rw [meets_bind_iff, meets_requireMutable]
  refine ⟨fun free => ?_, fun _ => (refl_of Quiet s).effect _⟩
  refine pop_respects.follow (refl_of Local s) stop fun key s₁ before => ?_
  refine pop_respects.follow before stop fun value s₂ before => ?_
  rw [meets_bind_iff, meets_params, meets_bind_iff, meets_get]
  refine (pay_respects _).follow before stop fun _ s₃ after => ?_
  rw [before.frame.params, before.overlay, meets_modifyOverlay]
  exact ⟨after.frame, .slot key value _ free rfl (by rw [after.overlay]; rfl)⟩

theorem log_effect (count : Fin 5) :
    Meets (log ctx.schedule count.val) s (fun _ => Effect ctx (some (.log count)) s)
      (fun _ => Effect ctx (some (.log count)) s) := by
  have stop : ∀ (_ : Halt) (u : Exec), Local s u → Effect ctx (some (.log count)) s u :=
    fun _ _ before => before.effect _
  unfold log
  rw [meets_bind_iff, meets_requireMutable]
  refine ⟨fun free => ?_, fun _ => (refl_of Quiet s).effect _⟩
  refine pop_respects.follow (refl_of Local s) stop fun offset s₁ before => ?_
  refine pop_respects.follow before stop fun size s₂ before => ?_
  refine (popMany_respects _).follow before stop fun topics s₃ before => ?_
  refine (touchMemory_respects _ _ _).follow before stop fun range s₄ before => ?_
  refine (pay_respects _).follow before stop fun _ s₅ before => ?_
  refine (readMemory_respects _ _).follow before stop fun data s₆ before => ?_
  rw [meets_bind_iff, meets_params, before.frame.params, meets_modifyOverlay]
  exact ⟨before.frame, .log count _ free rfl (by rw [before.overlay])⟩

theorem selfDestruct_effect :
    Meets (selfDestruct ctx) s (fun _ => Effect ctx (some .selfDestruct) s)
      (fun _ => Effect ctx (some .selfDestruct) s) := by
  have stop : ∀ (_ : Halt) (u : Exec), Local s u → Effect ctx (some .selfDestruct) s u :=
    fun _ _ before => before.effect _
  unfold selfDestruct
  rw [meets_bind_iff, meets_requireMutable]
  refine ⟨fun free => ?_, fun _ => (refl_of Quiet s).effect _⟩
  refine pop_respects.follow (refl_of Local s) stop fun target s₁ before => ?_
  refine (pay_respects _).follow before stop fun _ s₂ before => ?_
  rw [meets_bind_iff, meets_params, before.frame.params, meets_bind_iff, meets_modifyOverlay,
    before.overlay, meets_bind_iff]
  refine meets_tryOverlay _ (fun moved handed => ?_) (fun cause _ => ?_)
  · rw [meets_bind_iff, meets_modifyOverlay, meets_bind_iff, meets_get, meets_bind_iff,
      meets_report, meets_throw]
    refine ⟨before.frame, .destroyed (Address.ofWord target) moved free handed rfl ?_⟩
    rw [← before.frame.depth]
    exact List.mem_cons_self
  · exact ⟨before.frame, .refused free rfl⟩

/-- A creation uses up a nonce when it goes ahead without salt. -/
theorem create_effect (kind : CreateKind) :
    Meets (create ctx kind) s (fun _ => Effect ctx (some (.create kind)) s)
      (fun _ => Effect ctx (some (.create kind)) s) := by
  have stop : ∀ (_ : Halt) (u : Exec), Local s u → Effect ctx (some (.create kind)) s u :=
    fun _ _ before => before.effect _
  unfold create
  rw [meets_bind_iff, meets_requireMutable]
  refine ⟨fun free => ?_, fun _ => (refl_of Quiet s).effect _⟩
  refine pop_respects.follow (refl_of Local s) stop fun value s₁ before => ?_
  refine pop_respects.follow before stop fun offset s₂ before => ?_
  refine pop_respects.follow before stop fun size s₃ before => ?_
  refine (createSalt_respects kind).follow before stop fun salt s₄ before => ?_
  refine (touchMemory_respects _ _ _).follow before stop fun range s₅ before => ?_
  refine (pay_respects _).follow before stop fun _ s₆ before => ?_
  refine (readMemory_respects _ _).follow before stop fun initCode s₇ before => ?_
  refine (forward_respects _ _).follow before stop fun forwarded s₈ before => ?_
  rw [meets_bind_iff, meets_params, before.frame.params, meets_bind_iff, meets_get]
  refine (mayEnter_respects _ _ _ _).follow before stop fun allowed s₉ before => ?_
  cases allowed with
  | false =>
      exact (giveUp_respects takeBack_quiet rfl _).meets
        (fun _ _ after => (trans_of Quiet before.toQuiet after).effect _)
        (fun _ _ after => (trans_of Quiet before.toQuiet after).effect _)
  | true =>
      cases kind with
      | create2 => exact before.effect _
      | create => exact ⟨before.frame, .nonce free (by rw [← before.overlay])⟩

/-! ## The whole instruction set -/

theorem body_effect (pc : Nat) (instruction : Instruction) :
    Meets (body ctx pc instruction) s (fun _ => Effect ctx (some instruction) s)
      (fun _ => Effect ctx (some instruction) s) := by
  cases reach : instruction.reachesOut with
  | false => exact (body_local ctx pc reach).quiet.effect _
  | true =>
      cases instruction with
      | sstore => exact meets_next.2 storeSlot_effect
      | log count => exact meets_next.2 (log_effect count)
      | selfDestruct => exact meets_next.2 selfDestruct_effect
      | call kind => exact (call_respects takeBack_quiet ctx kind).effect _
      | create kind => exact create_effect kind
      | _ => cases reach

/-- What follows a quiet computation has the effect that it would have alone. -/
theorem Effect.after {t u : Exec} {instruction : Option Instruction} (before : Quiet s t)
    (effect : Effect ctx instruction t u) : Effect ctx instruction s u := by
  obtain ⟨frame, footprint⟩ := effect
  refine ⟨before.frame.trans frame, ?_⟩
  have params := before.frame.params
  have depth := before.frame.depth
  have overlay := before.overlay
  cases footprint with
  | nothing same => exact .nothing (same.trans overlay)
  | slot key value refund free earned wrote =>
      rw [params] at free
      rw [params, overlay] at earned wrote
      exact .slot key value refund free earned wrote
  | log count entry free own wrote =>
      rw [params] at free own
      rw [overlay] at wrote
      exact .log count entry free own wrote
  | nonce free wrote =>
      rw [params] at free
      rw [params, overlay] at wrote
      exact .nonce free wrote
  | refused free wrote =>
      rw [params] at free
      rw [params, overlay] at wrote
      exact .refused free wrote
  | destroyed beneficiary moved free handed wrote reported =>
      rw [params] at free wrote
      rw [params, overlay] at handed
      rw [params, depth] at reported
      exact .destroyed beneficiary moved free handed wrote reported

/-- Whatever byte is executed, and however that ends. -/
theorem instruction_effect (code : UInt8) :
    Meets (Step.instruction ctx code) s (fun _ => Effect ctx (Instruction.ofByte? code) s)
      (fun _ => Effect ctx (Instruction.ofByte? code) s) := by
  have announced := announced_related Local code s
  cases decoded : Instruction.ofByte? code with
  | none => exact instruction_unknown decoded (announced.effect _)
  | some instruction =>
      have begun := begun_related Local code (ctx.schedule.classPrice instruction.shape.tier) s
      refine instruction_meets decoded (fun _ => ?_) fun _ _ => announced.effect _
      exact (body_effect _ instruction).mono (fun _ _ effect => effect.after begun.toQuiet)
        (fun _ _ effect => effect.after begun.toQuiet)

end EvmLedger.Vm.Step
