/-
# EvmLedger.Proofs.Step.Deed -- the one lasting thing an instruction may do

Four instructions change more than the frame that executes them: one stores a
word, one makes a log entry, one uses up a nonce, and one destroys the account.
What such an instruction does if it gets to do it is its `Deed`, told in terms of
the operands and the memory that it finds; which instructions get to it can be
seen from how they end (`deed?`).

`instruction_deed` is the law of every byte of code: the overlay after it is the
one before it with the deed done, if there was one (`Done`), or a self-destruction
has failed after its refund was recorded.
-/
import EvmLedger.Proofs.Step.Cover
import EvmLedger.Proofs.Step.Footprint

namespace EvmLedger.Vm

set_option autoImplicit false

/-! ## Deeds -/

/-- What an instruction may do beyond its frame. -/
inductive Deed where
  /-- a word was stored in a slot that held another, or the same -/
  | stored (contract : Address) (key former value : Word)
  | logged (entry : Log)
  /-- a creator has used up a nonce -/
  | numbered (creator : Address)
  /-- an account has handed over its funds and destroyed itself -/
  | destroyed (account beneficiary : Address)
  deriving DecidableEq

namespace Deed

/-- The account in whose name it was done. -/
def account : Deed → Address
  | .stored contract _ _ _ => contract
  | .logged entry => entry.address
  | .numbered creator => creator
  | .destroyed account _ => account

/-- The overlay after a deed that was done, or after none. -/
inductive Done (ctx : Context) (before : Overlay) : Option Deed → Overlay → Prop
  | nothing : Done ctx before none before
  | stored (contract : Address) (key value : Word) (refund : Nat)
      (earned : refund = (ctx.schedule.sstoreCost
        (before.storage ctx.host contract key) value).2) :
      Done ctx before
        (some (.stored contract key (before.storage ctx.host contract key) value))
        ((before.refundIf (0 < refund) refund).setStorage contract key value)
  | logged (entry : Log) : Done ctx before (some (.logged entry)) (before.addLog entry)
  | numbered (creator : Address) :
      Done ctx before (some (.numbered creator)) (before.incrementNonce ctx.host creator)
  | destroyed (account beneficiary : Address) (moved : Overlay)
      (handed : (before.refundSuicide account ctx.schedule.suicideRefund).handOver
        ctx.host account beneficiary = .ok moved) :
      Done ctx before (some (.destroyed account beneficiary)) (moved.suicide account)

theorem Done.nothing_of_eq {ctx : Context} {before after : Overlay} (same : after = before) :
    Done ctx before none after := by
  rw [same]
  exact .nothing

end Deed

/-- The log entry that a frame makes with so many topics. -/
def Frame.logEntry (frame : Frame) (topics : Nat) : Log where
  address := frame.params.address
  topics := ((frame.stack.items.drop 2).take topics).map Hash.ofWord
  data :=
    let range := Step.usedRange (frame.operand 0) (frame.operand 1)
    frame.memory.readSlice range.1 range.2

namespace Step

/-- How a computation ended, without the state it left. -/
def ended {α : Type} : EStateM.Result Halt Exec α → Except Halt α
  | .ok a _ => .ok a
  | .error halt _ => .error halt

/-- The deed of an instruction that was executed in `s`, by how it ended. -/
def deed? (ctx : Context) (s : Exec) : Option Instruction → Except Halt Flow → Option Deed
  | some .sstore, .ok .next =>
      some (.stored s.frame.params.address (s.frame.operand 0)
        (s.overlay.storage ctx.host s.frame.params.address (s.frame.operand 0))
        (s.frame.operand 1))
  | some (.log topics), .ok .next => some (.logged (s.frame.logEntry topics.val))
  | some (.create .create), .ok (.enter ..) => some (.numbered s.frame.params.address)
  | some .selfDestruct, .error .stop =>
      some (.destroyed s.frame.params.address (Address.ofWord (s.frame.operand 0)))
  | _, _ => none

/-- An instruction that fails has not got to its deed. -/
theorem deed?_error (ctx : Context) (s : Exec) (instruction : Option Instruction) {halt : Halt}
    (failed : halt ≠ .stop) : deed? ctx s instruction (.error halt) = none := by
  unfold deed?
  split
  · simp_all
  · simp_all
  · simp_all
  · simp_all
  · rfl

/-- The report of an instruction and the price of its cost class do not matter. -/
theorem deed?_begun (ctx : Context) (s : Exec) (byte : UInt8) (price : Nat) :
    deed? ctx (s.begun byte price) = deed? ctx s := by
  funext instruction ending
  unfold deed?
  rfl

/-- A self-destruction failed when its refund was already recorded. -/
structure Spoiled (ctx : Context) (s : Exec) (halt : Halt) (t : Exec) : Prop where
  trapped : ∃ cause, halt = .trap cause
  wrote : t.overlay = s.overlay.refundSuicide s.frame.params.address ctx.schedule.suicideRefund

variable {α : Type} {ctx : Context} {s : Exec} {next : α → Exec → Prop}
  {halted : Halt → Exec → Prop} {n : Nat}

/-! ## The instructions with a deed -/

/-- The words taken are those that were on the stack. -/
theorem popMany_operands {count : Nat} {f : List Word → Step α}
    (enough : n + count ≤ s.frame.stack.size)
    (rest : Meets (f ((s.frame.stack.items.drop n).take count)) (s.without (n + count)) next
      halted) :
    Meets (popMany count >>= f) (s.without n) next halted := by
  induction count generalizing n f with
  | zero => exact rest
  | succ count ih =>
      have room : n < s.frame.stack.items.length := Nat.lt_of_lt_of_le (by omega) enough
      have top : s.frame.operand n = s.frame.stack.items[n] := by
        rw [Frame.operand, List.getD_eq_getElem?_getD, List.getElem?_eq_getElem room,
          Option.getD_some]
      unfold popMany
      rw [bind_assoc]
      refine pop_without room ?_
      rw [bind_assoc]
      refine ih (by omega) ?_
      rw [Nat.add_right_comm, Nat.add_assoc n count 1]
      rw [List.drop_eq_getElem_cons room, List.take_succ_cons, ← top] at rest
      exact rest

theorem log_deed (topics : Fin 5) (enough : 0 + 1 + 1 + topics.val ≤ s.frame.stack.size) :
    Meets (log ctx.schedule topics.val) s
      (fun _ t => t.overlay = s.overlay.addLog (s.frame.logEntry topics.val))
      fun _ t => t.overlay = s.overlay := by
  unfold log
  rw [meets_bind_iff, meets_requireMutable]
  refine ⟨fun _ => ?_, fun _ => rfl⟩
  show Meets _ (s.without 0) _ _
  refine pop_without (by omega) ?_
  refine pop_without (by omega) ?_
  refine popMany_operands enough ?_
  rw [meets_bind_iff]
  refine (touchMemory_reached _ _ _).mono (fun range t reached => ?_)
    fun _ t stopped => stopped.2.overlay
  rw [meets_bind_iff, meets_pay]
  refine ⟨fun _ => ?_, fun _ => reached.overlay⟩
  have read : t.frame.memory.readSlice range.1 range.2 = (s.frame.logEntry topics.val).data := by
    rw [Memory.readSlice_congr reached.image, reached.range_eq]
    rfl
  show t.overlay.addLog ⟨t.frame.params.address, _, t.frame.memory.readSlice range.1 range.2⟩ = _
  rw [read, reached.overlay, reached.frame.params]
  rfl

theorem storeSlot_deed (enough : 2 ≤ s.frame.stack.size) :
    Meets (storeSlot ctx) s
      (fun _ t => Deed.Done ctx s.overlay (deed? ctx s (some .sstore) (.ok .next)) t.overlay)
      fun _ t => t.overlay = s.overlay := by
  unfold storeSlot
  rw [meets_bind_iff, meets_requireMutable]
  refine ⟨fun _ => ?_, fun _ => rfl⟩
  show Meets _ (s.without 0) _ _
  refine pop_without (by omega) ?_
  refine pop_without (by omega) ?_
  rw [meets_bind_iff, meets_params, meets_bind_iff, meets_get, meets_bind_iff, meets_pay]
  refine ⟨fun _ => ?_, fun _ => rfl⟩
  rw [meets_modifyOverlay]
  exact .stored s.frame.params.address (s.frame.operand 0) (s.frame.operand 1) _ rfl

theorem selfDestruct_deed (enough : 1 ≤ s.frame.stack.size) :
    Meets (selfDestruct ctx) s (fun _ _ => False)
      fun halt t =>
        Deed.Done ctx s.overlay (deed? ctx s (some .selfDestruct) (.error halt)) t.overlay ∨
          Spoiled ctx s halt t := by
  unfold selfDestruct
  rw [meets_bind_iff, meets_requireMutable]
  refine ⟨fun _ => ?_, fun _ => .inl .nothing⟩
  show Meets _ (s.without 0) _ _
  refine pop_without (by omega) ?_
  rw [meets_bind_iff, meets_pay]
  refine ⟨fun _ => ?_, fun _ => .inl .nothing⟩
  rw [meets_bind_iff, meets_params, meets_bind_iff, meets_modifyOverlay, meets_bind_iff]
  refine meets_tryOverlay _ (fun moved handed => ?_) (fun cause _ => ?_)
  · rw [meets_bind_iff, meets_modifyOverlay, meets_bind_iff, meets_get, meets_bind_iff,
      meets_report, meets_throw]
    exact .inl (.destroyed _ _ moved handed)
  · exact .inr ⟨⟨cause, rfl⟩, rfl⟩

/-- A creation without salt uses up a nonce when it goes ahead. -/
theorem create_deed (kind : CreateKind) :
    Meets (create ctx kind) s
      (fun flow t =>
        Deed.Done ctx s.overlay (deed? ctx s (some (.create kind)) (.ok flow)) t.overlay)
      fun _ t => t.overlay = s.overlay := by
  have stop : ∀ (_ : Halt) (u : Exec), Local s u → u.overlay = s.overlay :=
    fun _ _ before => before.overlay
  unfold create
  rw [meets_bind_iff, meets_requireMutable]
  refine ⟨fun free => ?_, fun _ => rfl⟩
  refine pop_respects.follow (refl_of Local s) stop fun value s₁ before => ?_
  refine pop_respects.follow before stop fun offset s₂ before => ?_
  refine pop_respects.follow before stop fun size s₃ before => ?_
  refine (createSalt_respects kind).follow before stop fun salt s₄ before => ?_
  refine (touchMemory_respects _ _ _).follow before stop fun range s₅ before => ?_
  refine (pay_respects _).follow before stop fun _ s₆ before => ?_
  refine (readMemory_respects _ _).follow before stop fun initCode s₇ before => ?_
  refine (forward_respects _ _).follow before stop fun forwarded s₈ before => ?_
  rw [meets_bind_iff, meets_params, before.frame.params, meets_bind_iff, meets_get]
  refine (mayEnter_respects _ _ _ _).follow before stop fun allowed s₉ before => ?_
  cases allowed with
  | false =>
      have none_done : deed? ctx s (some (.create kind)) (.ok .next) = none := by cases kind <;> rfl
      have quiet : Respects Quiet
          (giveUp (.createRejected s₈.frame.depth s.frame.params.address) forwarded) :=
        giveUp_respects takeBack_quiet rfl forwarded
      refine ((quiet s₉).and (giveUp_next _ _)).mono (fun flow t given => ?_)
        (fun halt t given => ?_)
      · rw [given.2, none_done]
        exact .nothing_of_eq (given.1.overlay.trans before.overlay)
      · exact given.1.overlay.trans before.overlay
  | true =>
      cases kind with
      | create2 => exact .nothing_of_eq before.overlay
      | create =>
          show Deed.Done ctx s.overlay _ (s₉.overlay.incrementNonce ctx.host _)
          rw [before.overlay]
          exact .numbered _

/-! ## The whole instruction set -/

/-- The work of an instruction is its deed. -/
theorem body_deed (ctx : Context) (pc : Nat) (instruction : Instruction)
    (enough : instruction.shape.args ≤ s.frame.stack.size) :
    Meets (body ctx pc instruction) s
      (fun flow t => Deed.Done ctx s.overlay (deed? ctx s (some instruction) (.ok flow)) t.overlay)
      fun halt t =>
        Deed.Done ctx s.overlay (deed? ctx s (some instruction) (.error halt)) t.overlay ∨
          Spoiled ctx s halt t := by
  have nothing : ∀ (flow : Except Halt Flow) (t : Exec), t.overlay = s.overlay →
      deed? ctx s (some instruction) flow = none →
      Deed.Done ctx s.overlay (deed? ctx s (some instruction) flow) t.overlay := by
    intro flow t same undone
    rw [undone]
    exact .nothing_of_eq same
  cases reach : instruction.reachesOut with
  | false =>
      have undone : ∀ flow, deed? ctx s (some instruction) flow = none := by
        intro flow
        cases instruction <;> first | rfl | cases reach
      exact (body_local ctx pc reach).quiet.meets
        (fun flow t quiet => nothing _ t quiet.overlay (undone _))
        fun halt t quiet => .inl (nothing _ t quiet.overlay (undone _))
  | true =>
      cases instruction with
      | sstore =>
          refine meets_next.2 ((storeSlot_deed enough).mono (fun _ t done => done) ?_)
          exact fun halt t same => .inl (nothing _ t same rfl)
      | log topics =>
          have enough : 0 + 1 + 1 + topics.val ≤ s.frame.stack.size := by
            have args : (Instruction.log topics).shape.args = topics.val + 2 := rfl
            omega
          refine meets_next.2 ((log_deed topics enough).mono (fun _ t wrote => ?_) ?_)
          · rw [wrote]
            exact .logged _
          · exact fun halt t same => .inl (nothing _ t same rfl)
      | selfDestruct =>
          exact meets_next.2 ((selfDestruct_deed enough).mono (fun _ _ never => never.elim)
            fun halt t done => done)
      | call kind =>
          exact (call_respects takeBack_quiet ctx kind).meets
            (fun flow t quiet => nothing _ t quiet.overlay rfl)
            fun halt t quiet => .inl (nothing _ t quiet.overlay rfl)
      | create kind =>
          refine (create_deed kind).mono (fun flow t done => done) fun halt t same => .inl ?_
          exact nothing _ t same (by cases kind <;> rfl)
      | _ => cases reach

/-- Whatever byte is executed, and however that ends. -/
theorem instruction_deed (code : UInt8) :
    Meets (Step.instruction ctx code) s
      (fun flow t =>
        Deed.Done ctx s.overlay (deed? ctx s (Instruction.ofByte? code) (.ok flow)) t.overlay)
      fun halt t =>
        Deed.Done ctx s.overlay (deed? ctx s (Instruction.ofByte? code) (.error halt)) t.overlay ∨
          Spoiled ctx s halt t := by
  cases decoded : Instruction.ofByte? code with
  | none => exact instruction_unknown decoded (.inl .nothing)
  | some instruction =>
      refine instruction_meets decoded (fun ready => ?_) fun halt barred => .inl ?_
      · have done := body_deed ctx s.frame.pc instruction
          (s := s.begun code (ctx.schedule.classPrice instruction.shape.tier)) ready.operands
        rw [deed?_begun] at done
        exact done.mono (fun _ _ done => done)
          fun _ _ done => done.imp_right fun spoiled => ⟨spoiled.trapped, spoiled.wrote⟩
      · have early : halt ≠ .stop := by cases barred <;> nofun
        rw [deed?_error ctx s _ early]
        exact .nothing

end Step

end EvmLedger.Vm
