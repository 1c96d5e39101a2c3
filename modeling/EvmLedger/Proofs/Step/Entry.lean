/-
# EvmLedger.Proofs.Step.Entry -- which frames an instruction can start

Only calls and creations start a frame, and each does so in one place, after all
of its checks.  `Onward` says what may follow an instruction: the next
instruction, or a frame with everything that was checked before it is started.
`instruction_onward` is the inversion law for every byte of code.
-/
import EvmLedger.Proofs.Step.Charge

namespace EvmLedger.Vm.Step

set_option autoImplicit false

/-- What may follow an instruction that was executed in `s`. -/
inductive Onward (ctx : Context) (s : Exec) : Instruction → Flow → Prop
  | next {instruction : Instruction} : Onward ctx s instruction .next
  | call (kind : CallKind) (target : Address) (value : Word) (gas : Nat) (input : Bytes)
      (offset size : Nat)
      (permitted : ¬(s.frame.params.isStatic ∧ kind = .call ∧ value ≠ 0))
      (shallow : s.frame.depth < ctx.maxDepth)
      (funded : value ≤ s.overlay.balance ctx.host s.frame.params.address) :
      Onward ctx s (.call kind)
        (.enter (s.frame.params.callee kind target value gas (s.overlay.code ctx.host target) input)
          (.call offset size))
  | create (kind : CreateKind) (address : Address) (value : Word) (gas : Nat) (initCode : Bytes)
      (free : s.frame.params.isStatic = false) (shallow : s.frame.depth < ctx.maxDepth)
      (funded : value ≤ s.overlay.balance ctx.host s.frame.params.address) :
      Onward ctx s (.create kind)
        (.enter (s.frame.params.creation kind address value gas initCode) (.create address))

variable {α β : Type} {ctx : Context} {s : Exec}

/-- A law about the end of a sequence that holds wherever it is started. -/
theorem meets_bind_of_forall {x : Step β} {f : β → Step α} {next : α → Exec → Prop}
    (rest : ∀ b t, Meets (f b) t next fun _ _ => True) :
    Meets (x >>= f) s next fun _ _ => True := by
  rw [meets_bind_iff]
  unfold Meets
  cases x s with
  | ok b t => exact rest b t
  | error halt t => trivial

theorem next_onward {work : Step Unit} {instruction : Instruction} :
    Meets (next work) s (fun flow _ => Onward ctx s instruction flow) fun _ _ => True :=
  meets_bind_of_forall fun _ _ => .next

theorem giveUp_onward {t : Exec} {instruction : Instruction} (event : Event) (forwarded : Nat) :
    Meets (giveUp event forwarded) t (fun flow _ => Onward ctx s instruction flow)
      fun _ _ => True := by
  refine meets_bind_of_forall fun _ _ => meets_bind_of_forall fun _ _ => ?_
  exact meets_bind_of_forall fun _ _ => .next

/-- The code of an account is read where the instruction began. -/
theorem code_reads (host : Host) (address : Address) :
    Meets (code host address) s
      (fun bytes t => Local s t ∧ bytes = s.overlay.code host address) fun _ _ => True := by
  unfold code
  rw [meets_bind_iff, meets_get]
  dsimp only
  split
  · rw [meets_bind_iff, meets_report]
    exact ⟨Lenient.report s _ rfl, rfl⟩
  · exact ⟨refl_of Local s, rfl⟩

theorem mayEnter_checks {depth : Nat} {address : Address} {value : Word} :
    Meets (mayEnter ctx depth address value) s
      (fun allowed t => t = s ∧
        allowed = decide (depth < ctx.maxDepth ∧ value ≤ s.overlay.balance ctx.host address))
      fun _ _ => True :=
  ⟨rfl, rfl⟩

theorem call_onward (kind : CallKind) :
    Meets (call ctx kind) s (fun flow _ => Onward ctx s (.call kind) flow) fun _ _ => True := by
  have stop : ∀ (_ : Halt) (u : Exec), Local s u → True := fun _ _ _ => trivial
  unfold call
  refine pop_respects.follow (refl_of Local s) stop fun requested s₁ before => ?_
  refine pop_respects.follow before stop fun target s₂ before => ?_
  refine (callValue_respects kind).follow before stop fun value s₃ before => ?_
  refine pop_respects.follow before stop fun inOffset s₄ before => ?_
  refine pop_respects.follow before stop fun inSize s₅ before => ?_
  refine pop_respects.follow before stop fun outOffset s₆ before => ?_
  refine pop_respects.follow before stop fun outSize s₇ before => ?_
  rw [meets_bind_iff, meets_params, before.frame.params, meets_bind_iff, meets_require]
  refine ⟨fun permitted => ?_, fun _ => trivial⟩
  refine (extent_respects _ _).follow before stop fun inStop s₈ before => ?_
  refine (extent_respects _ _).follow before stop fun outStop s₉ before => ?_
  refine (growMemory_respects _ _).follow before stop fun _ s₁₀ before => ?_
  refine (callCost_respects _ _ _ _).follow before stop fun cost s₁₁ before => ?_
  refine (pay_respects cost).follow before stop fun _ s₁₂ before => ?_
  refine (forward_respects _ _).follow before stop fun forwarded s₁₃ before => ?_
  rw [meets_bind_iff, meets_get, meets_bind_iff]
  refine mayEnter_checks.mono (fun allowed t checked => ?_) (fun _ _ _ => trivial)
  obtain ⟨rfl, rfl⟩ := checked
  split
  · rename_i allowed
    rw [before.frame.depth, before.overlay, decide_eq_true_iff] at allowed
    refine (readMemory_respects _ _).follow before stop fun input s₁₄ after => ?_
    rw [meets_bind_iff]
    refine (code_reads _ _).mono (fun bytes t read => ?_) (fun _ _ _ => trivial)
    rw [read.2, after.overlay, meets_pure]
    exact .call kind _ value _ input _ _ permitted allowed.1 allowed.2
  · exact giveUp_onward _ _

theorem create_onward (kind : CreateKind) :
    Meets (create ctx kind) s (fun flow _ => Onward ctx s (.create kind) flow)
      fun _ _ => True := by
  have stop : ∀ (_ : Halt) (u : Exec), Local s u → True := fun _ _ _ => trivial
  unfold create
  rw [meets_bind_iff, meets_requireMutable]
  refine ⟨fun free => ?_, fun _ => trivial⟩
  refine pop_respects.follow (refl_of Local s) stop fun value s₁ before => ?_
  refine pop_respects.follow before stop fun offset s₂ before => ?_
  refine pop_respects.follow before stop fun size s₃ before => ?_
  refine (createSalt_respects kind).follow before stop fun salt s₄ before => ?_
  refine (touchMemory_respects _ _ _).follow before stop fun range s₅ before => ?_
  refine (pay_respects _).follow before stop fun _ s₆ before => ?_
  refine (readMemory_respects _ _).follow before stop fun initCode s₇ before => ?_
  refine (forward_respects _ _).follow before stop fun forwarded s₈ before => ?_
  rw [meets_bind_iff, meets_params, before.frame.params, meets_bind_iff, meets_get, meets_bind_iff]
  refine mayEnter_checks.mono (fun allowed t checked => ?_) (fun _ _ _ => trivial)
  obtain ⟨rfl, rfl⟩ := checked
  split
  · rename_i allowed
    rw [before.frame.depth, before.overlay, decide_eq_true_iff] at allowed
    exact meets_bind_of_forall fun address _ =>
      .create kind address value _ initCode free allowed.1 allowed.2
  · exact giveUp_onward _ _

theorem body_onward (pc : Nat) (instruction : Instruction) :
    Meets (body ctx pc instruction) s (fun flow _ => Onward ctx s instruction flow)
      fun _ _ => True := by
  cases instruction with
  | call kind => exact call_onward kind
  | create kind => exact create_onward kind
  | _ => exact next_onward

theorem Onward.after {t : Exec} {instruction : Instruction} {flow : Flow} (before : Quiet s t)
    (onward : Onward ctx t instruction flow) : Onward ctx s instruction flow := by
  have params := before.frame.params
  have depth := before.frame.depth
  have overlay := before.overlay
  cases onward with
  | next => exact .next
  | call kind target value gas input offset size permitted shallow funded =>
      rw [params] at permitted funded ⊢
      rw [depth] at shallow
      rw [overlay] at funded ⊢
      exact .call kind target value gas input offset size permitted shallow funded
  | create kind address value gas initCode free shallow funded =>
      rw [params] at free funded ⊢
      rw [depth] at shallow
      rw [overlay] at funded
      exact .create kind address value gas initCode free shallow funded

/-- Whatever byte is executed: the instruction is known, and it is followed by no other frame than
one that it may start. -/
theorem instruction_onward (byte : UInt8) :
    Meets (Step.instruction ctx byte) s
      (fun flow _ => ∃ instruction, Instruction.ofByte? byte = some instruction ∧
        Onward ctx s instruction flow)
      fun _ _ => True := by
  cases decoded : Instruction.ofByte? byte with
  | none => exact instruction_unknown decoded trivial
  | some instruction =>
      refine instruction_meets decoded (fun _ => ?_) fun _ _ => trivial
      have begun := begun_related Local byte (ctx.schedule.classPrice instruction.shape.tier) s
      refine (body_onward _ instruction).mono (fun flow t onward => ?_) (fun _ _ _ => trivial)
      exact ⟨instruction, rfl, onward.after begun.toQuiet⟩

end EvmLedger.Vm.Step
