/-
# EvmLedger.Proofs.Machine.Footprint -- what a step can change for those who look

Of all the steps of a machine only a few change anything that a program could see
through the overlay, and each of them may change only what belongs to the accounts
that it is about (`Rewrites`).  An instruction changes what its deed says (`deed?`),
in the name of the account that its frame acts for.  A frame that is opened moves
value from its sender to its address.  A creation that is closed stores code at its
address.  And a frame that fails takes back everything at once: what can be seen
then is what could be seen before it was opened.

Borrowed code runs in the name of the borrower, so it too writes the borrower's
slots and no others.
-/
import EvmLedger.Proofs.Machine.Frames
import EvmLedger.Proofs.Overlay.View
import EvmLedger.Proofs.Step.Deed
import EvmLedger.Proofs.Step.Entry

namespace EvmLedger.Vm

set_option autoImplicit false

/-! ## Deeds as seen from outside -/

/-- What was done changes only what it is about. -/
theorem Deed.Done.view {ctx : Context} {before after : Overlay} {deed : Option Deed}
    (done : Done ctx before deed after) :
    match deed with
    | none | some (.logged _) => after.view ctx.host = before.view ctx.host
    | some (.stored contract key _ value) =>
        after.view ctx.host = (before.view ctx.host).setSlot ⟨contract, key⟩ value
    | some (.numbered creator) =>
        after.view ctx.host = (before.view ctx.host).setNonce creator
          (Quantity.addSat ((before.view ctx.host).nonces creator) 1)
    | some (.destroyed account beneficiary) =>
        ∃ v, (before.view ctx.host).MovesBetween v account beneficiary ∧
          after.view ctx.host = v.destroy account := by
  cases done with
  | nothing => rfl
  | stored contract key value refund earned =>
      show Overlay.view _ _ = _
      rw [Overlay.view_setStorage, Overlay.view_refundIf]
  | logged entry => exact before.view_addLog ctx.host entry
  | numbered creator => exact before.view_incrementNonce ctx.host creator
  | destroyed account beneficiary moved handed =>
      have moves := Overlay.movesBetween_handOver handed
      rw [Overlay.view_refundSuicide] at moves
      exact ⟨_, moves, moved.view_suicide ctx.host account⟩

namespace Step

/-- The deeds that an instruction can have, with the operands that they come from. -/
inductive Does (ctx : Context) (s : Exec) : Instruction → Deed → Prop
  | stored : Does ctx s .sstore (.stored s.frame.params.address (s.frame.operand 0)
      (s.overlay.storage ctx.host s.frame.params.address (s.frame.operand 0)) (s.frame.operand 1))
  | logged (topics : Fin 5) : Does ctx s (.log topics) (.logged (s.frame.logEntry topics.val))
  | numbered : Does ctx s (.create .create) (.numbered s.frame.params.address)
  | destroyed : Does ctx s .selfDestruct
      (.destroyed s.frame.params.address (Address.ofWord (s.frame.operand 0)))

theorem deed?_eq_some {ctx : Context} {s : Exec} {instruction : Option Instruction}
    {ending : Except Halt Flow} {deed : Deed} (did : deed? ctx s instruction ending = some deed) :
    ∃ known, instruction = some known ∧ Does ctx s known deed := by
  unfold deed? at did
  split at did
  · cases did
    exact ⟨_, rfl, .stored⟩
  · cases did
    exact ⟨_, rfl, .logged _⟩
  · cases did
    exact ⟨_, rfl, .numbered⟩
  · cases did
    exact ⟨_, rfl, .destroyed⟩
  · cases did

/-- Whatever is done is done in the name of the account that the frame acts for. -/
theorem Does.account {ctx : Context} {s : Exec} {instruction : Instruction} {deed : Deed}
    (does : Does ctx s instruction deed) : deed.account = s.frame.params.address := by
  cases does <;> rfl

end Step

namespace Machine

variable {ctx : Context} {m m' : Machine} {events : List Event}

/-- The machine is about to execute an instruction in a frame. -/
def Executes (m : Machine) (frame : Frame) (instruction : Instruction) : Prop :=
  m.control = .running frame ∧
    (frame.code[frame.pc]?).bind Instruction.ofByte? = some instruction

/-- What the next step of a machine does beyond the running frame. -/
def deed? (ctx : Context) (m : Machine) : Option Deed :=
  match m.control with
  | .running frame =>
      match frame.code[frame.pc]? with
      | some code =>
          Step.deed? ctx ⟨frame, m.overlay, []⟩ (Instruction.ofByte? code)
            (Step.ended (Step.instruction ctx code ⟨frame, m.overlay, []⟩))
      | none => none
  | _ => none

/-- A deed is done by an instruction of the running frame. -/
theorem deed?_eq_some {deed : Deed} (did : deed? ctx m = some deed) :
    ∃ frame instruction, m.Executes frame instruction ∧
      Step.Does ctx ⟨frame, m.overlay, []⟩ instruction deed := by
  unfold deed? at did
  split at did
  · rename_i frame running
    split at did
    · rename_i code fetched
      obtain ⟨known, decoded, does⟩ := Step.deed?_eq_some did
      refine ⟨frame, known, ⟨running, ?_⟩, does⟩
      rw [fetched]
      exact decoded
    · cases did
  · cases did

/-- A step of the running frame has done its deed, or it was a self-destruction that failed. -/
theorem Transition.deed (moved : Transition ctx m m' events) {frame : Frame}
    (running : m.control = .running frame) :
    Deed.Done ctx m.overlay (deed? ctx m) m'.overlay ∨
      deed? ctx m = none ∧
        m'.overlay = m.overlay.refundSuicide frame.params.address ctx.schedule.suicideRefund ∧
        ∃ frame' cause, m'.control = .halting frame' (.trap cause) := by
  cases moved with
  | ended exhausted =>
      cases running
      left
      simp only [deed?, exhausted]
      exact .nothing
  | advanced fetched ran | suspended fetched ran =>
      cases running
      have done := (Step.instruction_deed _).of_ok ran
      left
      simp only [deed?, fetched, ran, Step.ended]
      exact done
  | @halted scene _ code t halt fetched ran =>
      cases running
      rcases (Step.instruction_deed _).of_error ran with done | spoiled
      · left
        simp only [deed?, fetched, ran, Step.ended]
        exact done
      · right
        obtain ⟨cause, rfl⟩ := spoiled.trapped
        refine ⟨?_, spoiled.wrote, _, cause, rfl⟩
        simp only [deed?, fetched, ran, Step.ended]
        exact Step.deed?_error ctx _ _ nofun
  | opened | rejected | closed | resumed | overfull | idle => cases running

/-! ## Frames that fail -/

/-- A frame that is closed was opened in the same run. -/
theorem exists_entry {n : Nat} {params : Params} {cache : JumpCache} {frame : Frame} {halt : Halt}
    (halting : (exec ctx n (.start params cache)).control = .halting frame halt) :
    ∃ i < n, (exec ctx i (.start params cache)).control = .enter frame.params ∧
      ∃ result, EndsAfter ctx (exec ctx i (.start params cache)) (n - i + 1) result := by
  have top : frame :: (exec ctx n (.start params cache)).waiting.map (·.frame) <:+
      (exec ctx n (.start params cache)).openFrames := by
    simp only [openFrames, halting]
    exact List.suffix_refl _
  obtain ⟨i, before, enters, below, ongoing⟩ := opened_exec (m := .start params cache) rfl n top
  have reached : exec ctx (n - i) (exec ctx i (.start params cache)) =
      exec ctx n (.start params cache) := by
    rw [← exec_add, Nat.add_sub_cancel' (Nat.le_of_lt before)]
  have level := congrArg List.length below
  simp only [openFrames, enters, List.length_map] at level
  rw [← reached] at halting level
  exact ⟨i, before, enters, endsAfter_of_halting ongoing halting level.symm⟩

/-- A frame that halted is settled, and then its scope is closed. -/
theorem Transition.closing (moved : Transition ctx m m' events) {frame : Frame} {halt : Halt}
    (halting : m.control = .halting frame halt) :
    ∃ result settled,
      settle ctx.schedule frame.params m.overlay (halt.result frame.gas) = (result, settled) ∧
        m'.overlay = (if result.isSuccess then settled.commit else settled.discard) ∧
        m'.control = .returning result := by
  cases moved with
  | closed settled =>
      cases halting
      exact ⟨_, _, settled, rfl, rfl⟩
  | _ => cases halting

/-- A result is handed on without a look at the scopes. -/
theorem Transition.overlay_returning (moved : Transition ctx m m' events) {result : Result}
    (returns : m.control = .returning result) : m'.overlay = m.overlay := by
  cases moved with
  | resumed | overfull | idle => rfl
  | _ => cases returns

/-- A frame that starts is paid, and one that is turned away changes nothing. -/
theorem Transition.view_enter (moved : Transition ctx m m' events) {entered : Params}
    (enters : m.control = .enter entered) :
    (m.overlay.view ctx.host).MovesBetween (m'.overlay.view ctx.host) entered.sender
      entered.address := by
  cases moved with
  | @opened scene params overlay jumps cache events prepared known =>
      cases enters
      have moves : (scene.overlay.enter.view ctx.host).MovesBetween (overlay.view ctx.host)
          entered.sender entered.address := by
        rcases prepare_eq_ok prepared with rfl | paid
        · exact .refl _ _ _
        · exact Overlay.movesBetween_transfer paid
      rw [Overlay.view_enter] at moves
      exact moves
  | rejected refused => exact .refl _ _ _
  | _ => cases enters

/-- Settling changes nothing but the code of a contract that is being created. -/
theorem view_settle (host : Host) {schedule : Schedule} {params : Params}
    {overlay settled : Overlay} {result result' : Result}
    (ended : settle schedule params overlay result = (result', settled)) :
    settled.view host = overlay.view host ∨ ∃ code, params.kind.isCreate = true ∧
      settled.view host = (overlay.view host).setCode params.address code := by
  rcases settle_eq ended with ⟨rfl, _⟩ | ⟨code, gas, _, _, rfl⟩
  · exact Or.inl rfl
  · cases creates : params.kind.isCreate with
    | true => exact Or.inr ⟨code, rfl, overlay.view_setCode host params.address code⟩
    | false =>
        unfold settle at ended
        rw [creates, if_neg Bool.false_ne_true] at ended
        exact Or.inl (congrArg (fun o => Overlay.view host o) (Prod.mk.inj ended).2.symm)

/-! ## What a step changes -/

/-- What can be seen before and after step `n` of the run of `m`, in the cases in which it
differs. -/
inductive Rewrites (ctx : Context) (m : Machine) (n : Nat) (v : View) : View → Prop
  | nothing : Rewrites ctx m n v v
  /-- an instruction stores a word -/
  | stored (frame : Frame) (executes : (exec ctx n m).Executes frame .sstore) :
      Rewrites ctx m n v
        (v.setSlot ⟨frame.params.address, frame.operand 0⟩ (frame.operand 1))
  /-- a creation uses up a nonce, unless there are no greater ones -/
  | numbered (frame : Frame) (executes : (exec ctx n m).Executes frame (.create .create)) :
      Rewrites ctx m n v
        (v.setNonce frame.params.address (Quantity.addSat (v.nonces frame.params.address) 1))
  /-- an account hands over its funds -/
  | destroyed (frame : Frame) (v' : View) (executes : (exec ctx n m).Executes frame .selfDestruct)
      (moves : v.MovesBetween v' frame.params.address (Address.ofWord (frame.operand 0))) :
      Rewrites ctx m n v (v'.destroy frame.params.address)
  /-- a frame is opened -/
  | opened (entered : Params) (v' : View) (enters : (exec ctx n m).control = .enter entered)
      (moves : v.MovesBetween v' entered.sender entered.address) : Rewrites ctx m n v v'
  /-- a creation is closed and its code is stored -/
  | deposited (frame : Frame) (halt : Halt) (code : Bytes)
      (halting : (exec ctx n m).control = .halting frame halt)
      (creates : frame.params.kind.isCreate = true) :
      Rewrites ctx m n v (v.setCode frame.params.address code)
  /-- a frame that fails is closed, and what was seen before it was opened is seen again -/
  | undone (frame : Frame) (halt : Halt) (i : Nat) (result : Result)
      (halting : (exec ctx n m).control = .halting frame halt) (earlier : i < n)
      (entered : (exec ctx i m).control = .enter frame.params)
      (ends : EndsAfter ctx (exec ctx i m) (n - i + 1) result)
      (failed : result.isSuccess = false) :
      Rewrites ctx m n v ((exec ctx i m).overlay.view ctx.host)

variable {params : Params} {cache : JumpCache} {n : Nat}

/-- An instruction changes what its deed is about. -/
theorem rewrites_running {frame : Frame}
    (running : (exec ctx n m).control = .running frame) :
    Rewrites ctx m n ((exec ctx n m).overlay.view ctx.host)
      ((exec ctx (n + 1) m).overlay.view ctx.host) := by
  have moved := transition_exec ctx n m
  rcases moved.deed running with done | ⟨-, wrote, -⟩
  · cases did : deed? ctx (exec ctx n m) with
    | none =>
        rw [did] at done
        rw [done.view]
        exact .nothing
    | some deed =>
        rw [did] at done
        have seen := done.view
        obtain ⟨frame, instruction, executes, does⟩ := deed?_eq_some did
        cases does with
        | stored =>
            rw [show _ = _ from seen]
            exact .stored frame executes
        | logged topics =>
            rw [show _ = _ from seen]
            exact .nothing
        | numbered =>
            rw [show _ = _ from seen]
            exact .numbered frame executes
        | destroyed =>
            obtain ⟨v, moves, seen⟩ := seen
            rw [seen]
            exact .destroyed frame v executes moves
  · rw [wrote, Overlay.view_refundSuicide]
    exact .nothing

/-- A frame that is closed stores its code, or takes back what was done in it, or changes
nothing. -/
theorem rewrites_halting {frame : Frame} {halt : Halt}
    (halting : (exec ctx n (.start params cache)).control = .halting frame halt) :
    Rewrites ctx (.start params cache) n
      ((exec ctx n (.start params cache)).overlay.view ctx.host)
      ((exec ctx (n + 1) (.start params cache)).overlay.view ctx.host) := by
  have moved := transition_exec ctx n (.start params cache)
  obtain ⟨result, settled, closed, overlay, returns⟩ := moved.closing halting
  cases succeeded : result.isSuccess with
  | true =>
      rw [overlay, if_pos succeeded, Overlay.view_commit]
      rcases view_settle ctx.host closed with same | ⟨code, creates, stored⟩
      · rw [same]
        exact .nothing
      · rw [stored]
        exact .deposited frame halt code halting creates
  | false =>
      obtain ⟨i, earlier, entered, other, ends⟩ := exists_entry halting
      have reached : exec ctx (n - i + 1) (exec ctx i (.start params cache)) =
          exec ctx (n + 1) (.start params cache) := by
        rw [← exec_add]
        congr 1
        omega
      have same := ends.returns
      rw [reached, returns] at same
      cases same
      have back : (exec ctx (n + 1) (.start params cache)).overlay =
          (exec ctx i (.start params cache)).overlay := by
        rcases ends.closes entered with ⟨_, back⟩ | ⟨j, own, _, closes⟩
        · rw [← reached, back]
        · rw [← reached, closes.undone succeeded]
      rw [back]
      exact .undone frame halt i result halting earlier entered ends succeeded

/-- In every step of a run, what can be seen changes in these ways only: a frame that stores a word
changes that slot of the account it acts for; a creation without salt raises the nonce of the
account that makes it by one, as far as there is a greater one; a frame that is opened, or one that
destroys its account, moves value between two accounts, its sender and its address, or that account
and the beneficiary; a creation that is closed changes the code of its address; and a frame that
fails takes back what has changed since it was opened.  Code that is borrowed is run in the name of
the borrower. -/
theorem write_footprint (ctx : Context) (params : Params) (cache : JumpCache) (n : Nat) :
    Rewrites ctx (.start params cache) n
        ((exec ctx n (.start params cache)).overlay.view ctx.host)
        ((exec ctx (n + 1) (.start params cache)).overlay.view ctx.host) ∧
      ∀ (frame : Frame) (kind : CallKind) (entered : Params),
        (exec ctx n (.start params cache)).Executes frame (.call kind) →
        kind = .delegateCall ∨ kind = .callCode →
        (exec ctx (n + 1) (.start params cache)).control = .enter entered →
        entered.address = frame.params.address := by
  have moved := transition_exec ctx n (.start params cache)
  constructor
  · cases control : (exec ctx n (.start params cache)).control with
    | enter entered => exact .opened entered _ control (moved.view_enter control)
    | running frame => exact rewrites_running control
    | halting frame halt => exact rewrites_halting control
    | returning result =>
        rw [moved.overlay_returning control]
        exact .nothing
  · intro frame kind entered executes borrowed enters
    obtain ⟨running, decoded⟩ := executes
    obtain ⟨code, continuation, t, fetched, ran, -⟩ := moved.starts running enters
    rw [fetched, Option.bind_some] at decoded
    obtain ⟨instruction, same, onward⟩ := (Step.instruction_onward code).of_ok ran
    rw [decoded] at same
    cases same
    cases onward
    rcases borrowed with rfl | rfl <;> rfl

/-- A transaction that borrows the code of the account 7. -/
def borrowing : Params where
  address := ⟨1⟩
  sender := ⟨2⟩
  origin := ⟨2⟩
  gas := 100000
  code := [0x60, 0x00, 0x80, 0x80, 0x80, 0x60, 0x07, 0x61, 0xff, 0xff, 0xf4]

/-- The code of that account: it stores one in the slot zero. -/
def library : Bytes := [0x60, 0x01, 0x60, 0x00, 0x55]

/-- The word is stored for the borrower. -/
theorem write_footprint_library :
    (∃ frame entered,
        (exec (.hosting 0 ⟨7⟩ library) 7 (.start borrowing ∅)).Executes frame
          (.call .delegateCall) ∧
        (exec (.hosting 0 ⟨7⟩ library) (7 + 1) (.start borrowing ∅)).control = .enter entered ∧
        entered.address = frame.params.address) ∧
      (exec (.hosting 0 ⟨7⟩ library) 12 (.start borrowing ∅)).overlay.storage
        (Context.hosting 0 ⟨7⟩ library).host ⟨1⟩ 0 = 1 ∧
      (exec (.hosting 0 ⟨7⟩ library) 12 (.start borrowing ∅)).overlay.storage
        (Context.hosting 0 ⟨7⟩ library).host ⟨7⟩ 0 = 0 := by
  have borrows : (exec (.hosting 0 ⟨7⟩ library) 7 (.start borrowing ∅)).fetched? = some 0xf4 := by
    decide +kernel
  have enters : (exec (.hosting 0 ⟨7⟩ library) (7 + 1) (.start borrowing ∅)).entering?.isSome := by
    decide +kernel
  obtain ⟨frame, running, fetched⟩ := fetched?_eq_some.1 borrows
  obtain ⟨entered, entering⟩ := Option.isSome_iff_exists.1 enters
  have executes : (exec (.hosting 0 ⟨7⟩ library) 7 (.start borrowing ∅)).Executes frame
      (.call .delegateCall) := by
    refine ⟨running, ?_⟩
    rw [fetched]
    rfl
  have entering := entering?_eq_some.1 entering
  have borrowed := (write_footprint (.hosting 0 ⟨7⟩ library) borrowing ∅ 7).2 frame .delegateCall
    entered executes (.inl rfl) entering
  refine ⟨⟨frame, entered, executes, entering, borrowed⟩, ?_, ?_⟩
  · decide +kernel
  · decide +kernel

end Machine

end EvmLedger.Vm
