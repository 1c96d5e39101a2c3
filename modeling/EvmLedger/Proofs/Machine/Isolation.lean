/-
# EvmLedger.Proofs.Machine.Isolation -- a static call leaves no trace

A frame that must not change state writes nothing itself, and every frame that it
starts is bound by the same rule.  But starting a frame may move value, and one
kind of call moves it without asking whether the caller may change state.  What
saves the rule is that this kind of call pays from an account to itself
(`Params.Harmless`): no harmless frame writes when it is prepared, executed or
settled, and whatever it starts is harmless again.

So as long as a static call runs, the scopes of all frames inside it are empty
(`Isolated`), and closing an empty scope adds nothing to the one below it.
-/
import EvmLedger.Proofs.Machine.Waiting
import EvmLedger.Proofs.Step.Entry

namespace EvmLedger.Vm

set_option autoImplicit false

/-- A frame that changes no state: it is static and creates nothing, and the value that it is sent
is none, or comes from the account itself. -/
structure Params.Harmless (params : Params) : Prop where
  static : params.isStatic = true
  runs : params.kind.isCreate = false
  poor : params.kind = .call .call → params.value = 0
  own : params.kind = .call .callCode → params.sender = params.address

/-- A static call starts a harmless frame. -/
theorem Step.Onward.harmless_of_staticCall {ctx : Context} {s : Exec} {params : Params}
    {continuation : Continuation}
    (onward : Onward ctx s (.call .staticCall) (.enter params continuation)) :
    params.Harmless := by
  cases onward
  exact ⟨Bool.or_true _, rfl, nofun, nofun⟩

/-- Whatever a static frame starts is harmless. -/
theorem Step.Onward.harmless {ctx : Context} {s : Exec} {instruction : Instruction}
    {params : Params} {continuation : Continuation} (static : s.frame.params.isStatic = true)
    (onward : Onward ctx s instruction (.enter params continuation)) : params.Harmless := by
  cases onward with
  | call kind target value gas input offset size permitted shallow funded =>
      refine ⟨?_, rfl, fun kind_eq => ?_, fun kind_eq => ?_⟩
      · show (s.frame.params.isStatic || kind == .staticCall) = true
        rw [static, Bool.true_or]
      · cases kind_eq
        by_contra sends
        exact permitted ⟨static, rfl, sends⟩
      · cases kind_eq
        rfl
  | create kind address value gas initCode free shallow funded =>
      rw [static] at free
      cases free

namespace Machine

/-- Preparing a harmless frame writes nothing. -/
theorem prepare_of_harmless {host : Host} {overlay prepared : Overlay} {params : Params}
    (harmless : params.Harmless) (ready : prepare host overlay params = .ok prepared) :
    prepared = overlay := by
  unfold prepare at ready
  rw [harmless.runs, if_neg (by simp)] at ready
  split at ready
  · cases ready
    rfl
  · cases ready
    rfl
  · rename_i delegated static
    refine Overlay.transfer_trivial ?_ ready
    have runs := harmless.runs
    cases kind : params.kind with
    | create other => rw [kind] at runs; cases runs
    | call other =>
        cases other with
        | call => exact Or.inr (harmless.poor kind)
        | callCode => exact Or.inl (harmless.own kind)
        | delegateCall => exact absurd kind delegated
        | staticCall => exact absurd kind static

/-- Settling a harmless frame writes nothing. -/
theorem settle_of_harmless {schedule : Schedule} {overlay : Overlay} {params : Params}
    (harmless : params.Harmless) (result : Result) :
    settle schedule params overlay result = (result, overlay) := by
  unfold settle
  rw [harmless.runs, if_neg Bool.false_ne_true]

/-! ## Refunds during a run -/

theorem Transition.refundsFit {ctx : Context} {m m' : Machine} {events : List Event}
    (moved : Transition ctx m m' events) (fits : m.overlay.RefundsFit) :
    m'.overlay.RefundsFit := by
  cases moved with
  | opened prepared =>
      rcases prepare_eq_ok prepared with rfl | paid
      · exact fits.enter
      · exact fits.enter.transfer paid
  | advanced fetched ran | suspended fetched ran =>
      exact ((Step.instruction_effect _).of_ok ran).footprint.refundsFit fits
  | halted fetched ran =>
      exact ((Step.instruction_effect _).of_error ran).footprint.refundsFit fits
  | @closed scene frame halt result overlay settled =>
      have after : overlay.RefundsFit := by
        rcases settle_eq settled with ⟨rfl, _⟩ | ⟨data, gas, _, _, rfl⟩
        · exact fits
        · exact fits.of_current rfl fits.current
      dsimp only
      split
      · exact after.commit
      · exact after.discard
  | _ => exact fits

/-- All along a run refunds are amounts. -/
theorem refundsFit_exec (ctx : Context) (params : Params) (cache : JumpCache) (n : Nat) :
    (exec ctx n (.start params cache)).overlay.RefundsFit := by
  induction n with
  | zero =>
      intro e among
      rw [List.mem_singleton.1 among]
      exact (by decide : 0 < Quantity.bound)
  | succ n ih =>
      rw [exec_succ]
      exact (step_transition ctx _).refundsFit ih

/-! ## Inside a static call -/

/-- The parameters of the frame that a machine is busy with. -/
def params? (m : Machine) : Option Params :=
  match m.control with
  | .enter params => some params
  | .running frame | .halting frame _ => some frame.params
  | .returning _ => none

/-- The scopes that the frame itself has. -/
def ownScopes (m : Machine) : Nat :=
  match m.control with
  | .running _ | .halting _ _ => 1
  | .enter _ | .returning _ => 0

/-- In `m` all frames that are there on top of those that wait in `base` are harmless, and all
scopes that are there on top of those of `base` are empty. -/
structure Isolated (base m : Machine) : Prop where
  nested : ∃ inner : List Suspended, m.waiting = inner ++ base.waiting ∧
    (∀ suspended ∈ inner, suspended.frame.params.Harmless) ∧
    m.overlay.scopes = List.replicate (inner.length + m.ownScopes) .empty ++ base.overlay.scopes
  busy : ∀ params, m.params? = some params → params.Harmless

theorem isolated_enter {m : Machine} {params : Params} (enters : m.control = .enter params)
    (harmless : params.Harmless) : Isolated m m := by
  refine ⟨⟨[], rfl, nofun, ?_⟩, fun other same => ?_⟩
  · simp only [ownScopes, enters]
    rfl
  · simp only [params?, enters, Option.some.injEq] at same
    exact same ▸ harmless

/-- The instructions of a harmless frame leave the scopes alone. -/
theorem executed_of_harmless {ctx : Context} {frame : Frame} {overlay : Overlay}
    {instruction : Option Instruction} {t : Exec} (harmless : frame.params.Harmless)
    (effect : Step.Effect ctx instruction ⟨frame, overlay, []⟩ t) :
    t.overlay = overlay ∧ t.frame.params.Harmless := by
  have same := effect.frame.params
  exact ⟨effect.footprint.of_static harmless.static, same ▸ harmless⟩

/-- A scope that is empty leaves the others as they are when it is closed. -/
theorem scopes_close {overlay : Overlay} {below : List Effects} (nonempty : below ≠ [])
    (scopes : overlay.scopes = .empty :: below)
    (fits : ∀ e ∈ below, e.refund < Quantity.bound) (kept : Bool) :
    (if kept then overlay.commit else overlay.discard).scopes = below := by
  obtain ⟨parent, rest, rfl⟩ := List.exists_cons_of_ne_nil nonempty
  obtain ⟨empty, outer⟩ := List.cons.inj scopes
  have same := Overlay.commit_eq_discard outer empty (fits parent List.mem_cons_self)
  rw [same, ite_self, Overlay.discard_of_outer outer]
  rfl

/-- The frame that takes over a result is one of those inside, as long as the static call has not
ended. -/
theorem Isolated.popped {base : Machine} {suspended : Suspended} {waiting : List Suspended}
    {overlay : Overlay} {cache : JumpCache} {result : Result}
    (isolated : Isolated base ⟨⟨suspended :: waiting, overlay, cache⟩, .returning result⟩)
    (ongoing : (suspended :: waiting).length ≠ base.waiting.length) :
    suspended.frame.params.Harmless ∧
      ∃ inner : List Suspended, waiting = inner ++ base.waiting ∧
        (∀ suspended ∈ inner, suspended.frame.params.Harmless) ∧
        overlay.scopes = List.replicate (inner.length + 1) .empty ++ base.overlay.scopes := by
  obtain ⟨inner, waits, all, scopes⟩ := isolated.nested
  cases inner with
  | nil => exact absurd (congrArg List.length waits) ongoing
  | cons nearest inner =>
      obtain ⟨rfl, rest⟩ := List.cons.inj waits
      obtain ⟨harmless, all⟩ := List.forall_mem_cons.1 all
      exact ⟨harmless, inner, rest, all, scopes⟩

/-- Until a result is handed to the frames that wait in `base`, all stays isolated. -/
theorem Isolated.step {ctx : Context} {base m m' : Machine} {events : List Event}
    (fits : base.overlay.RefundsFit) (isolated : Isolated base m)
    (ongoing : ∀ result, m.control = .returning result →
      m.waiting.length ≠ base.waiting.length)
    (moved : Transition ctx m m' events) : Isolated base m' := by
  have ⟨⟨inner, waits, all, scopes⟩, busy⟩ := isolated
  cases moved with
  | opened prepared =>
      have harmless := busy _ rfl
      cases prepare_of_harmless harmless prepared
      refine ⟨⟨inner, waits, all, ?_⟩, fun _ same => Option.some.inj same ▸ harmless⟩
      exact congrArg (List.cons Effects.empty) scopes
  | rejected refused => exact ⟨⟨inner, waits, all, scopes⟩, nofun⟩
  | ended exhausted => exact ⟨⟨inner, waits, all, scopes⟩, busy⟩
  | advanced fetched ran =>
      obtain ⟨same, harmless⟩ :=
        executed_of_harmless (busy _ rfl) ((Step.instruction_effect _).of_ok ran)
      refine ⟨⟨inner, waits, all, ?_⟩, fun _ is => Option.some.inj is ▸ harmless⟩
      rw [same]
      exact scopes
  | @suspended scene frame code t params continuation fetched ran =>
      have static := (busy _ rfl).static
      obtain ⟨same, harmless⟩ :=
        executed_of_harmless (busy _ rfl) ((Step.instruction_effect _).of_ok ran)
      obtain ⟨instruction, _, onward⟩ := (Step.instruction_onward _).of_ok ran
      refine ⟨⟨⟨t.frame, continuation⟩ :: inner, ?_, ?_, ?_⟩,
        fun _ is => Option.some.inj is ▸ onward.harmless static⟩
      · rw [waits, List.cons_append]
      · exact List.forall_mem_cons.2 ⟨harmless, all⟩
      · -- the scope of the frame that waits now counts as one of those further in
        rw [same]
        exact scopes
  | halted fetched ran =>
      obtain ⟨same, harmless⟩ :=
        executed_of_harmless (busy _ rfl) ((Step.instruction_effect _).of_error ran)
      refine ⟨⟨inner, waits, all, ?_⟩, fun _ is => Option.some.inj is ▸ harmless⟩
      rw [same]
      exact scopes
  | closed settled =>
      rw [settle_of_harmless (busy _ rfl)] at settled
      cases settled
      refine ⟨⟨inner, waits, all, scopes_close ?_ scopes ?_ _⟩, nofun⟩
      · simp [Overlay.scopes]
      · intro e among
        rcases List.mem_append.1 among with empty | below
        · rw [List.eq_of_mem_replicate empty]
          exact (by decide : 0 < Quantity.bound)
        · exact fits e below
  | resumed ready =>
      obtain ⟨harmless, rest⟩ := isolated.popped (ongoing _ rfl)
      refine ⟨rest, fun _ is => Option.some.inj is ▸ ?_⟩
      exact (resume_eq_ok ready).1.params ▸ harmless
  | overfull failed =>
      obtain ⟨harmless, rest⟩ := isolated.popped (ongoing _ rfl)
      exact ⟨rest, fun _ is => Option.some.inj is ▸ harmless⟩
  | idle => exact ⟨⟨inner, waits, all, scopes⟩, busy⟩

/-- All that a static call does stays isolated. -/
theorem isolated_exec {ctx : Context} {m : Machine} {params : Params} {k : Nat}
    (fits : m.overlay.RefundsFit) (enters : m.control = .enter params)
    (harmless : params.Harmless) (ongoing : Ongoing ctx m k) : Isolated m (exec ctx k m) := by
  induction k with
  | zero => exact isolated_enter enters harmless
  | succ k ih =>
      rw [exec_succ]
      exact (ih (ongoing.mono (Nat.le_succ k))).step fits (ongoing k (Nat.lt_succ_self k))
        (step_transition ctx _)

/-- A static call leaves no trace.  From the instruction that makes the call up to its end there is
nothing in the scopes on top of those that were there before it, and these stay as they are; when
it has ended, with whatever result, all scopes are what they were. -/
theorem static_isolated (ctx : Context) (params : Params) (cache : JumpCache) (n : Nat)
    (frame : Frame) (entered : Params)
    (running : (exec ctx n (.start params cache)).control = .running frame)
    (static : frame.code[frame.pc]? = some 0xfa)
    (entering : (exec ctx (n + 1) (.start params cache)).control = .enter entered) :
    (∀ k, Ongoing ctx (exec ctx (n + 1) (.start params cache)) k → ∃ depth,
        (exec ctx (n + 1 + k) (.start params cache)).overlay.scopes =
          List.replicate depth .empty ++ (exec ctx n (.start params cache)).overlay.scopes) ∧
      ∀ k result, EndsAfter ctx (exec ctx (n + 1) (.start params cache)) k result →
        (exec ctx (n + 1 + k) (.start params cache)).overlay =
          (exec ctx n (.start params cache)).overlay := by
  have fits := refundsFit_exec ctx params cache (n + 1)
  have moved := step_transition ctx (exec ctx n (.start params cache))
  rw [← exec_succ] at moved
  obtain ⟨code, continuation, t, fetched, ran, reached⟩ := moved.starts running entering
  cases static.symm.trans fetched
  have effect := (Step.instruction_effect 0xfa).of_ok ran
  obtain ⟨instruction, decoded, onward⟩ := (Step.instruction_onward 0xfa).of_ok ran
  have call : Instruction.ofByte? 0xfa = some (.call .staticCall) := rfl
  rw [call] at effect decoded
  cases decoded
  have harmless : entered.Harmless := onward.harmless_of_staticCall
  have before : (exec ctx (n + 1) (.start params cache)).overlay =
      (exec ctx n (.start params cache)).overlay := by
    rw [reached]
    obtain ⟨_, footprint⟩ := effect
    cases footprint with
    | nothing same => exact same
  constructor
  · intro k ongoing
    obtain ⟨inner, _, _, scopes⟩ := (isolated_exec fits entering harmless ongoing).nested
    rw [exec_add, ← before]
    exact ⟨_, scopes⟩
  · intro k result ends
    obtain ⟨inner, waits, _, scopes⟩ := (isolated_exec fits entering harmless ends.ongoing).nested
    rw [ends.waiting, List.self_eq_append_left] at waits
    rw [exec_add, ← before]
    subst waits
    simp only [ownScopes, ends.returns] at scopes
    exact Overlay.eq_of_scopes scopes

/-- A transaction that writes a slot and then makes a static call to the account 7. -/
def peeking : Params where
  address := .zero
  sender := .zero
  origin := .zero
  gas := 100000
  code := [0x60, 0x01, 0x60, 0x00, 0x55, 0x60, 0x00, 0x80, 0x80, 0x80, 0x60, 0x07, 0x61, 0xff, 0xff,
    0xfa]

/-- The code of that account: it sends a unit by a call with the code of the account 9, and then it
tries to write a slot. -/
def prying : Bytes :=
  [0x60, 0x00, 0x80, 0x80, 0x80, 0x60, 0x01, 0x60, 0x09, 0x61, 0x0f, 0xff, 0xf2, 0x60, 0x01, 0x60,
    0x00, 0x55]

/-- The value goes nowhere, the write is refused, and the slot written before the static call is
still there. -/
theorem static_isolated_prying :
    EndsAfter (.hosting 5 ⟨7⟩ prying) (exec (.hosting 5 ⟨7⟩ prying) (10 + 1) (.start peeking ∅)) 17
        (.trap .mutableCallInStaticContext) ∧
      (exec (.hosting 5 ⟨7⟩ prying) (10 + 1 + 17) (.start peeking ∅)).overlay =
        (exec (.hosting 5 ⟨7⟩ prying) 10 (.start peeking ∅)).overlay ∧
      (exec (.hosting 5 ⟨7⟩ prying) (10 + 1 + 17) (.start peeking ∅)).overlay.storage
        (Context.hosting 5 ⟨7⟩ prying).host .zero 0 = 1 := by
  have static : (exec (.hosting 5 ⟨7⟩ prying) 10 (.start peeking ∅)).fetched? = some 0xfa := by
    decide +kernel
  have enters : (exec (.hosting 5 ⟨7⟩ prying) (10 + 1) (.start peeking ∅)).entering?.isSome := by
    decide +kernel
  have ends : EndsAfter (.hosting 5 ⟨7⟩ prying)
      (exec (.hosting 5 ⟨7⟩ prying) (10 + 1) (.start peeking ∅)) 17
      (.trap .mutableCallInStaticContext) := by
    decide +kernel
  obtain ⟨frame, running, fetched⟩ := fetched?_eq_some.1 static
  obtain ⟨entered, entering⟩ := Option.isSome_iff_exists.1 enters
  have same := (static_isolated _ peeking ∅ 10 frame entered running fetched
    (entering?_eq_some.1 entering)).2 17 _ ends
  have kept : (exec (.hosting 5 ⟨7⟩ prying) (10 + 1 + 17) (.start peeking ∅)).overlay.storage
      (Context.hosting 5 ⟨7⟩ prying).host .zero 0 = 1 := by
    decide +kernel
  exact ⟨ends, same, kept⟩

end Machine

end EvmLedger.Vm
