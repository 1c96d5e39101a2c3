/-
# EvmLedger.Proofs.Step.Outcome -- how a computation on a frame can end

A `Step` goes on with a value or halts the frame, and both ways leave a state
behind: a halt keeps the writes made before it, so a law about a step has to
speak of both.  `Meets` is the postcondition of a step at one state, with one
predicate for each way to end; `Respects` relates every state to the one that
the step leaves, whichever way it ends.

`meets_bind_iff` takes a sequence apart, and a relation that is reflexive and
transitive is respected by a sequence when its parts respect it
(`Respects.bind`).
-/
import EvmLedger.Vm.Step
import Mathlib.Order.Defs.Unbundled

namespace EvmLedger.Vm.Step

set_option autoImplicit false

variable {α β : Type}

/-- From `s` the computation goes on with a value and a state that satisfy `next`, or halts the
frame and leaves a state that satisfies `halted`. -/
def Meets (x : Step α) (s : Exec) (next : α → Exec → Prop) (halted : Halt → Exec → Prop) : Prop :=
  match x s with
  | .ok a t => next a t
  | .error halt t => halted halt t

section Meets

variable {s : Exec} {next : α → Exec → Prop} {halted : Halt → Exec → Prop}

@[simp] theorem meets_pure (a : α) : Meets (pure a) s next halted ↔ next a s := Iff.rfl

@[simp] theorem meets_get {next : Exec → Exec → Prop} :
    Meets get s next halted ↔ next s s := Iff.rfl

@[simp] theorem meets_throw (halt : Halt) :
    Meets (throw halt : Step α) s next halted ↔ halted halt s := Iff.rfl

@[simp] theorem meets_trap (cause : Trap) :
    Meets (trap cause : Step α) s next halted ↔ halted (.trap cause) s := Iff.rfl

@[simp] theorem meets_modifyFrame (f : Frame → Frame) {next : Unit → Exec → Prop} :
    Meets (modifyFrame f) s next halted ↔ next () { s with frame := f s.frame } := Iff.rfl

@[simp] theorem meets_modifyOverlay (f : Overlay → Overlay) {next : Unit → Exec → Prop} :
    Meets (modifyOverlay f) s next halted ↔ next () { s with overlay := f s.overlay } := Iff.rfl

@[simp] theorem meets_report (event : Event) {next : Unit → Exec → Prop} :
    Meets (report event) s next halted ↔ next () { s with events := event :: s.events } := Iff.rfl

@[simp] theorem meets_params {next : Params → Exec → Prop} :
    Meets params s next halted ↔ next s.frame.params s := Iff.rfl

/-- A sequence is taken apart at the state between its parts. -/
theorem meets_bind_iff (x : Step β) (f : β → Step α) :
    Meets (x >>= f) s next halted ↔
      Meets x s (fun b t => Meets (f b) t next halted) halted := by
  simp only [Meets, bind, EStateM.bind]
  cases x s <;> rfl

theorem meets_require (condition : Prop) [Decidable condition] (cause : Trap)
    {next : Unit → Exec → Prop} :
    Meets (require condition cause) s next halted ↔
      (condition → next () s) ∧ (¬condition → halted (.trap cause) s) := by
  unfold require
  split
  case isTrue holds => simp [holds]
  case isFalse fails => simp [fails]

@[simp] theorem meets_requireMutable {next : Unit → Exec → Prop} :
    Meets requireMutable s next halted ↔
      (s.frame.params.isStatic = false → next () s) ∧
        (¬s.frame.params.isStatic = false → halted (.trap .mutableCallInStaticContext) s) := by
  unfold requireMutable
  rw [meets_bind_iff, meets_params, meets_require]

theorem meets_tryOverlay (change : Overlay → Except Trap Overlay) {next : Unit → Exec → Prop}
    (changed : ∀ overlay, change s.overlay = .ok overlay → next () { s with overlay := overlay })
    (refused : ∀ cause, change s.overlay = .error cause → halted (.trap cause) s) :
    Meets (tryOverlay change) s next halted := by
  unfold tryOverlay
  rw [meets_bind_iff, meets_get]
  cases result : change s.overlay with
  | ok overlay => exact changed overlay result
  | error cause => exact refused cause result

theorem meets_pay (amount : Nat) {next : Unit → Exec → Prop} :
    Meets (pay amount) s next halted ↔
      (amount ≤ s.frame.gas →
        next () { s with frame := { s.frame with gas := s.frame.gas - amount } }) ∧
        (s.frame.gas < amount → halted .outOfGas s) := by
  unfold pay Gas.pay?
  rw [meets_bind_iff, meets_get]
  by_cases short : s.frame.gas < amount
  · simp [short, Nat.not_le.2 short]
  · simp [short, Nat.not_lt.1 short]

theorem meets_push (w : Word) {next : Unit → Exec → Prop} :
    Meets (push w) s next halted ↔
      (s.frame.stack.size < Stack.limit →
        next () { s with frame := { s.frame with stack := ⟨w :: s.frame.stack.items⟩ } }) ∧
        (Stack.limit ≤ s.frame.stack.size → halted (.trap .outOfStack) s) := by
  unfold push Stack.push
  rw [meets_bind_iff, meets_get]
  by_cases full : Stack.limit ≤ s.frame.stack.size
  · simp [full, Nat.not_lt.2 full]
  · simp [full, Nat.lt_of_not_le full]

theorem meets_pop {w : Word} {rest : List Word} (items : s.frame.stack.items = w :: rest)
    {next : Word → Exec → Prop} :
    Meets pop s next halted ↔ next w { s with frame := { s.frame with stack := ⟨rest⟩ } } := by
  unfold pop Stack.pop
  rw [meets_bind_iff, meets_get, items]
  rfl

/-- An instruction that starts no frame ends as its work does. -/
theorem meets_next {work : Step Unit} {next : Flow → Exec → Prop} :
    Meets (Step.next work) s next halted ↔ Meets work s (fun _ => next .next) halted := by
  unfold Step.next
  rw [meets_bind_iff]
  rfl

theorem Meets.mono {x : Step α} {next' : α → Exec → Prop} {halted' : Halt → Exec → Prop}
    (meets : Meets x s next halted) (onNext : ∀ a t, next a t → next' a t)
    (onHalt : ∀ halt t, halted halt t → halted' halt t) : Meets x s next' halted' := by
  unfold Meets at meets ⊢
  cases result : x s with
  | ok a t => rw [result] at meets; exact onNext a t meets
  | error halt t => rw [result] at meets; exact onHalt halt t meets

theorem Meets.and {x : Step α} {next' : α → Exec → Prop} {halted' : Halt → Exec → Prop}
    (meets : Meets x s next halted) (meets' : Meets x s next' halted') :
    Meets x s (fun a t => next a t ∧ next' a t) (fun halt t => halted halt t ∧ halted' halt t) := by
  unfold Meets at meets meets' ⊢
  cases result : x s with
  | ok a t => rw [result] at meets meets'; exact ⟨meets, meets'⟩
  | error halt t => rw [result] at meets meets'; exact ⟨meets, meets'⟩

theorem Meets.of_ok {x : Step α} {a : α} {t : Exec} (meets : Meets x s next halted)
    (ended : x s = .ok a t) : next a t := by
  simpa only [Meets, ended] using meets

theorem Meets.of_error {x : Step α} {halt : Halt} {t : Exec} (meets : Meets x s next halted)
    (ended : x s = .error halt t) : halted halt t := by
  simpa only [Meets, ended] using meets

end Meets

/-! ## Relations between the states before and after -/

/-- Every state is related to the one that the computation leaves, whichever way it ends. -/
def Respects (R : Exec → Exec → Prop) (x : Step α) : Prop :=
  ∀ s, Meets x s (fun _ t => R s t) (fun _ t => R s t)

namespace Respects

variable {R : Exec → Exec → Prop}

/-- What follows a computation may rely on the relation that it respects. -/
theorem meets {x : Step α} (respects : Respects R x) {s : Exec} {next : α → Exec → Prop}
    {halted : Halt → Exec → Prop} (onNext : ∀ a t, R s t → next a t)
    (onHalt : ∀ halt t, R s t → halted halt t) : Meets x s next halted :=
  (respects s).mono onNext onHalt

theorem mono {R' : Exec → Exec → Prop} {x : Step α} (respects : Respects R x)
    (weaker : ∀ s t, R s t → R' s t) : Respects R' x :=
  fun s => (respects s).mono (fun _ t => weaker s t) (fun _ t => weaker s t)

/-- A computation in the middle of a sequence: from a state that `s` is already related to, the
rest may rely on the relation between `s` and the state it starts in. -/
theorem follow [IsTrans Exec R] {x : Step β} (respects : Respects R x) {f : β → Step α}
    {s t : Exec} {next : α → Exec → Prop} {halted : Halt → Exec → Prop} (before : R s t)
    (stop : ∀ halt u, R s u → halted halt u)
    (rest : ∀ b u, R s u → Meets (f b) u next halted) : Meets (x >>= f) t next halted := by
  rw [meets_bind_iff]
  refine respects.meets (fun b u after => ?_) (fun halt u after => ?_)
  · exact rest b u (trans_of R before after)
  · exact stop halt u (trans_of R before after)

theorem ite {condition : Prop} [Decidable condition] {x y : Step α} (yes : Respects R x)
    (no : Respects R y) : Respects R (if condition then x else y) := by
  split
  · exact yes
  · exact no

theorem map {x : Step β} (respects : Respects R x) (f : β → α) : Respects R (f <$> x) := by
  intro s
  have related := respects s
  unfold Meets at related ⊢
  simp only [Functor.map, EStateM.map]
  cases result : x s with
  | ok b t => rw [result] at related; exact related
  | error halt t => rw [result] at related; exact related

variable [IsPreorder Exec R]

theorem pure (a : α) : Respects R (pure a) := fun s => refl_of R s

theorem get : Respects R get := fun s => refl_of R s

theorem throw (halt : Halt) : Respects R (throw halt : Step α) := fun s => refl_of R s

theorem bind {x : Step β} {f : β → Step α} (first : Respects R x)
    (rest : ∀ b, Respects R (f b)) : Respects R (x >>= f) := by
  intro s
  rw [meets_bind_iff]
  refine first.meets (fun b t before => ?_) (fun _ _ before => before)
  exact (rest b t).mono (fun _ _ after => trans_of R before after)
    (fun _ _ after => trans_of R before after)

theorem require (condition : Prop) [Decidable condition] (cause : Trap) :
    Respects R (require condition cause) :=
  ite (pure ()) (throw (.trap cause))

end Respects

end EvmLedger.Vm.Step
