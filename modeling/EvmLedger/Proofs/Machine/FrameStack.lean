/-
# EvmLedger.Proofs.Machine.FrameStack -- the frames as a stack with slots

The machine keeps what a waiting frame will do with its result in the list of
frames that wait, and what comes next in its control.  The same run can be driven
with less: one stack of all open frames, where every frame has three slots for
the frame it asks for (`nested`), for what it does with the result of that frame
(`waiting`) and for the result itself (`returned`), and where one loop looks at
the frame on top to find out what is next (`FrameStack.step`).

Kept in this way a run could get into states that make no sense: a frame with a
result it did not wait for, no frame at all, a scope too many or too few.  The
driver has branches for them, and tells when it takes one (`Detour`).  The main
statement is that it never does, as slots, scopes and depths stay in step
(`InStep`): the stack is at all times the image of the machine
(`step_ofMachine`), in which such states cannot be written down, and the scopes of
the overlay are counted by the open frames.
-/
import EvmLedger.Proofs.Machine.Frames
import EvmLedger.Proofs.Overlay.View
import EvmLedger.Proofs.Step.Entry

namespace EvmLedger.Vm

set_option autoImplicit false

/-! ## The driver -/

/-- A frame on the stack. -/
structure Slotted where
  frame : Frame
  /-- the frame it asks for -/
  nested : Option (Params × Continuation) := none
  /-- what it does with the result of the frame it started -/
  waiting : Option Continuation := none
  /-- the result it was handed -/
  returned : Option Result := none

/-- Where the driver is in its loop. -/
inductive Phase where
  /-- at the head of the loop, perhaps with a frame to start -/
  | turn (entering : Option Params)
  /-- the frame on top executes instructions -/
  | stepping
  /-- the frame on top has halted -/
  | exiting (halt : Halt)
  | finished (result : Result)

/-- Branches that the driver has for states that make no sense. -/
inductive Detour where
  /-- there is no frame to look at -/
  | noFrame
  /-- a result was handed to a frame that does not wait for one -/
  | notAwaited
  /-- the root scope was to be closed -/
  | rootScope
  deriving DecidableEq

/-- The state of the driver. -/
structure FrameStack where
  /-- the open frames, top first -/
  frames : List Slotted
  overlay : Overlay
  cache : JumpCache
  phase : Phase

namespace FrameStack

open Machine (prepare settle resume)

/-- Before the first step there are no frames, and one to start. -/
def start (params : Params) (cache : JumpCache) : FrameStack :=
  ⟨[], {}, cache, .turn (some params)⟩

/-- Closes the innermost scope. -/
def leaveScope (overlay : Overlay) (success : Bool) : Overlay × List Detour :=
  (if success then overlay.commit else overlay.discard,
    if overlay.outer.isEmpty then [.rootScope] else [])

/-- Hands a result to the frame on top; without frames it is the result of the run. -/
def handUp (s : FrameStack) (result : Result) : FrameStack :=
  match s.frames with
  | [] => { s with phase := .finished result }
  | top :: rest =>
      { s with frames := { top with returned := some result } :: rest, phase := .turn none }

/-- Puts a frame on the stack, or turns it away. -/
def openTop (ctx : Context) (s : FrameStack) (params : Params) : FrameStack × List Detour :=
  match prepare ctx.host s.overlay.enter params with
  | .ok overlay =>
      let (jumps, cache) := s.cache.fetch params.code
      (⟨{ frame := .start params jumps s.frames.length } :: s.frames, overlay, cache, .stepping⟩,
        [])
  | .error cause =>
      let (overlay, detours) := leaveScope s.overlay.enter false
      (handUp { s with overlay := overlay } (.trap cause), detours)

/-- The frame on top goes on, with the result that it was handed, if any. -/
def resumeTop (s : FrameStack) : FrameStack × List Detour :=
  match s.frames with
  | [] => ({ s with phase := .finished (.stopped 0) }, [.noFrame])
  | top :: rest =>
      match top.returned, top.waiting with
      | none, _ => ({ s with phase := .stepping }, [])
      | some result, none =>
          let frame := { top.frame with gas := Gas.takeBack top.frame.gas result.gasLeft }
          ({ s with
              frames := { top with frame := frame, returned := none } :: rest
              phase := .stepping },
            [.notAwaited])
      | some result, some continuation =>
          let top := { top with returned := none, waiting := none }
          match resume top.frame continuation result with
          | .ok frame =>
              ({ s with frames := { top with frame := frame } :: rest, phase := .stepping }, [])
          | .error cause =>
              ({ s with frames := top :: rest, phase := .exiting (.trap cause) }, [])

/-- The frame on top executes an instruction, and then it may ask for another frame. -/
def stepTop (ctx : Context) (s : FrameStack) : FrameStack × List Detour :=
  match s.frames with
  | [] => ({ s with phase := .finished (.stopped 0) }, [.noFrame])
  | top :: rest =>
      match top.frame.code[top.frame.pc]? with
      | none => ({ s with phase := .exiting .stop }, [])
      | some code =>
          match Step.instruction ctx code ⟨top.frame, s.overlay, []⟩ with
          | .error halt t =>
              (⟨{ top with frame := t.frame } :: rest, t.overlay, s.cache, .exiting halt⟩, [])
          | .ok flow t =>
              let nested := match flow with
                | .enter params continuation => some (params, continuation)
                | .next => top.nested
              match nested with
              | none =>
                  (⟨{ top with frame := t.frame } :: rest, t.overlay, s.cache, .stepping⟩, [])
              | some (params, continuation) =>
                  let top :=
                    { top with frame := t.frame, nested := none, waiting := some continuation }
                  (⟨top :: rest, t.overlay, s.cache, .turn (some params)⟩, [])

/-- Takes the frame on top off the stack and closes its scope. -/
def closeTop (ctx : Context) (s : FrameStack) (halt : Halt) : FrameStack × List Detour :=
  match s.frames with
  | [] => ({ s with phase := .finished (halt.result 0) }, [.noFrame])
  | top :: rest =>
      let (result, settled) :=
        settle ctx.schedule top.frame.params s.overlay (halt.result top.frame.gas)
      let (overlay, detours) := leaveScope settled result.isSuccess
      (handUp { s with frames := rest, overlay := overlay } result, detours)

/-- One step of the driver, and the detours it takes. -/
def step (ctx : Context) (s : FrameStack) : FrameStack × List Detour :=
  match s.phase with
  | .turn (some params) => s.openTop ctx params
  | .turn none => s.resumeTop
  | .stepping => s.stepTop ctx
  | .exiting halt => s.closeTop ctx halt
  | .finished _ => (s, [])

/-- The driver after `n` steps. -/
def exec (ctx : Context) (n : Nat) (s : FrameStack) : FrameStack := (fun s => (s.step ctx).1)^[n] s

/-! ## The image of the machine -/

/-- A frame that waits. -/
def ofSuspended (s : Suspended) : Slotted := { frame := s.frame, waiting := some s.continuation }

/-- The machine as the driver keeps it. -/
def ofMachine (m : Machine) : FrameStack :=
  let below := m.waiting.map ofSuspended
  match m.control with
  | .enter params => ⟨below, m.overlay, m.cache, .turn (some params)⟩
  | .running frame => ⟨{ frame := frame } :: below, m.overlay, m.cache, .stepping⟩
  | .halting frame halt => ⟨{ frame := frame } :: below, m.overlay, m.cache, .exiting halt⟩
  | .returning result => handUp ⟨below, m.overlay, m.cache, .turn none⟩ result

variable {ctx : Context} {m : Machine}

@[simp] theorem leaveScope_of_nested {overlay : Overlay} (nested : overlay.outer ≠ [])
    (success : Bool) :
    leaveScope overlay success = (if success then overlay.commit else overlay.discard, []) := by
  have more : overlay.outer.isEmpty = false := by simpa using nested
  simp only [leaveScope, more, Bool.false_eq_true, if_false]

/-- The driver does what the machine does, and as long as every frame that halts has a scope it
takes no detours. -/
theorem step_ofMachine
    (enclosed : ∀ frame halt, m.control = .halting frame halt → m.overlay.outer ≠ []) :
    (ofMachine m).step ctx = (ofMachine (m.next ctx), []) := by
  obtain ⟨⟨waiting, overlay, cache⟩, control⟩ := m
  have opens : overlay.enter.outer ≠ [] := List.cons_ne_nil _ _
  cases control with
  | enter params =>
      simp only [ofMachine, step, openTop, Machine.next, Machine.step, Machine.openFrame,
        List.length_map]
      cases prepare ctx.host overlay.enter params with
      | ok prepared => rfl
      | error cause => rw [leaveScope_of_nested opens]; rfl
  | running frame =>
      simp only [ofMachine, step, stepTop, Machine.next, Machine.step, Machine.stepFrame,
        EStateM.run]
      cases frame.code[frame.pc]? with
      | none => rfl
      | some code =>
          dsimp only
          cases Step.instruction ctx code ⟨frame, overlay, []⟩ with
          | error halt t => rfl
          | ok flow t => cases flow <;> rfl
  | halting frame halt =>
      simp only [ofMachine, step, closeTop, Machine.next, Machine.step, Machine.closeFrame]
      cases settled : settle ctx.schedule frame.params overlay (halt.result frame.gas) with
      | mk result closed =>
          have nested : closed.outer ≠ [] := by
            rw [Machine.outer_settle settled]
            exact enclosed frame halt rfl
          dsimp only
          rw [leaveScope_of_nested nested]
          cases waiting <;> rfl
  | returning result =>
      cases waiting with
      | nil => rfl
      | cons nearest rest =>
          obtain ⟨frame, continuation⟩ := nearest
          simp only [ofMachine, handUp, ofSuspended, step, resumeTop, Machine.next, Machine.step,
            Machine.stepReturn, List.map_cons]
          cases resume frame continuation result <;> rfl

theorem frames_ofMachine (m : Machine) :
    (ofMachine m).frames.map (·.frame) = m.openFrames := by
  obtain ⟨⟨waiting, overlay, cache⟩, control⟩ := m
  have below : (waiting.map ofSuspended).map (·.frame) = waiting.map (·.frame) := by
    rw [List.map_map]
    rfl
  cases control with
  | enter params => exact below
  | running frame | halting frame => exact congrArg (List.cons frame) below
  | returning result =>
      cases waiting with
      | nil => rfl
      | cons nearest rest => exact below

theorem overlay_ofMachine (m : Machine) : (ofMachine m).overlay = m.overlay := by
  obtain ⟨⟨waiting, overlay, cache⟩, control⟩ := m
  cases control with
  | returning result => cases waiting <;> rfl
  | _ => rfl

/-- Only the frame on top is anything but a frame that waits, and it has a result only if it waits
too. -/
theorem exists_top (m : Machine) :
    (ofMachine m).frames = [] ∨ ∃ top, ∃ below : List Suspended,
      (ofMachine m).frames = top :: below.map ofSuspended ∧
      top.nested = none ∧ (top.returned.isSome → top.waiting.isSome) := by
  obtain ⟨⟨waiting, overlay, cache⟩, control⟩ := m
  cases control with
  | running frame => exact Or.inr ⟨_, waiting, rfl, rfl, nofun⟩
  | halting frame halt => exact Or.inr ⟨_, waiting, rfl, rfl, nofun⟩
  | enter params =>
      cases waiting with
      | nil => exact Or.inl rfl
      | cons nearest rest => exact Or.inr ⟨ofSuspended nearest, rest, rfl, rfl, nofun⟩
  | returning result =>
      cases waiting with
      | nil => exact Or.inl rfl
      | cons nearest rest => exact Or.inr ⟨_, rest, rfl, rfl, fun _ => rfl⟩

end FrameStack

/-! ## Frames that cannot start -/

/-- A frame that a frame starts has its value covered, unless it has borrowed both value and
sender. -/
theorem Step.Onward.covered {ctx : Context} {s t : Exec} {instruction : Instruction}
    {params : Params} {continuation : Continuation}
    (onward : Onward ctx s instruction (.enter params continuation))
    (footprint : Footprint ctx s t (some instruction)) (pays : params.kind ≠ .call .delegateCall) :
    params.value ≤ t.overlay.balance ctx.host params.sender := by
  have same : t.overlay.balance ctx.host = s.overlay.balance ctx.host := by
    cases onward with
    | call =>
        cases footprint with
        | nothing same => rw [same]
    | create =>
        cases footprint with
        | nothing same => rw [same]
        | nonce _ wrote =>
            rw [wrote]
            exact congrArg View.balances (s.overlay.view_incrementNonce ctx.host _)
  rw [same]
  cases onward with
  | call kind target value gas input offset size permitted shallow funded =>
      have own : kind ≠ .delegateCall := fun borrowed => pays (congrArg FrameKind.call borrowed)
      simpa only [Params.callee, own, if_false] using funded
  | create kind address value gas initCode free shallow funded => exact funded

namespace Machine

variable {ctx : Context} {m m' : Machine} {events : List Event}

/-- A frame with its value covered is turned away because its address is taken, or because the payee
cannot take the value. -/
theorem prepare_covered {host : Host} {overlay : Overlay} {params : Params} {cause : Trap}
    (covered : params.kind ≠ .call .delegateCall →
      params.value ≤ overlay.balance host params.sender)
    (refused : prepare host overlay params = .error cause) :
    cause = .overflow ∨ cause = .invalidCodeAddress := by
  have transferred : params.value ≤ overlay.balance host params.sender →
      overlay.transfer host params.sender params.address params.value = .error cause →
      cause = .overflow := by
    intro enough refused
    unfold Overlay.transfer at refused
    dsimp only at refused
    rw [if_neg (BitVec.not_lt.2 enough)] at refused
    split at refused
    · cases refused
    · split at refused
      · cases refused
        rfl
      · cases refused
  unfold prepare at refused
  split at refused
  · cases refused
    exact Or.inr rfl
  · split at refused
    · cases refused
    · cases refused
    · rename_i pays _
      exact Or.inl (transferred (covered pays) refused)

/-- A frame that is about to be started by another one has its value covered. -/
theorem Transition.covered (moved : Transition ctx m m' events) {params : Params}
    (enters : m'.control = .enter params) (pays : params.kind ≠ .call .delegateCall) :
    params.value ≤ m'.overlay.balance ctx.host params.sender := by
  cases moved with
  | suspended fetched ran =>
      cases enters
      obtain ⟨instruction, decoded, onward⟩ := (Step.instruction_onward _).of_ok ran
      have footprint := ((Step.instruction_effect _).of_ok ran).footprint
      rw [decoded] at footprint
      exact onward.covered footprint pays
  | _ => cases enters

/-- There is room for one more frame when a frame is about to be started. -/
theorem Transition.shallow (moved : Transition ctx m m' events) {params : Params}
    (enters : m'.control = .enter params)
    (depth : ∀ frame below, frame :: below <:+ m.openFrames → frame.depth = below.length) :
    m'.openFrames.length ≤ ctx.maxDepth := by
  cases moved with
  | @suspended scene frame code t params continuation fetched ran =>
      cases enters
      have above := depth frame (scene.waiting.map (·.frame)) (List.suffix_refl _)
      obtain ⟨instruction, decoded, onward⟩ := (Step.instruction_onward _).of_ok ran
      have shallow : frame.depth < ctx.maxDepth := by
        cases onward with
        | call _ _ _ _ _ _ _ _ shallow _ => exact shallow
        | create _ _ _ _ _ _ shallow _ => exact shallow
      show (t.frame :: scene.waiting.map (·.frame)).length ≤ ctx.maxDepth
      rw [List.length_cons, ← above]
      exact shallow
  | _ => cases enters

/-- No more frames are open than the greatest depth allows for. -/
theorem length_openFrames_le (ctx : Context) (params : Params) (cache : JumpCache) (n : Nat) :
    (exec ctx n (.start params cache)).openFrames.length ≤ ctx.maxDepth + 1 ∧
      ∀ entered, (exec ctx n (.start params cache)).control = .enter entered →
        (exec ctx n (.start params cache)).openFrames.length ≤ ctx.maxDepth := by
  induction n with
  | zero => exact ⟨Nat.zero_le _, fun _ _ => Nat.zero_le _⟩
  | succ n ih =>
      obtain ⟨bounded, shallow⟩ := ih
      have moved := transition_exec ctx n (.start params cache)
      constructor
      · rcases moved.openFrames with
          ⟨start, enters, _, opens⟩ | fewer | ⟨frame, frame', rest, was, is, _⟩
        · rw [opens, List.length_cons]
          exact Nat.succ_le_succ (shallow _ enters)
        · exact fewer.length_le.trans bounded
        · rw [was] at bounded
          rw [is]
          exact bounded
      · intro entered enters
        exact moved.shallow enters fun frame below within => depth_exec rfl n within

end Machine

/-! ## The invariant of the driver -/

namespace FrameStack

/-- The slots, the scopes and the depths of a stack of frames are in step with one another. -/
structure InStep (ctx : Context) (s : FrameStack) : Prop where
  scopes : s.overlay.depth = s.frames.length
  bounded : s.frames.length ≤ ctx.maxDepth + 1
  depths : ∀ a below, a :: below <:+ s.frames → a.frame.depth = below.length
  /-- a frame below the top waits, and it has no result -/
  suspended : ∀ a ∈ s.frames.tail, a.waiting.isSome ∧ a.returned = none
  awaited : ∀ a ∈ s.frames, a.returned.isSome → a.waiting.isSome
  nested : ∀ a ∈ s.frames, a.nested = none

variable {ctx : Context} {params : Params} {cache : JumpCache}

/-- A frame that halts has a scope of its own. -/
theorem enclosed_exec (n : Nat) {frame : Frame} {halt : Halt}
    (halting : (Machine.exec ctx n (.start params cache)).control = .halting frame halt) :
    (Machine.exec ctx n (.start params cache)).overlay.outer ≠ [] := by
  have even := Machine.even_start ctx params cache n
  intro root
  unfold Overlay.depth at even
  simp only [Machine.openFrames, halting, root, List.length_cons, List.length_nil] at even
  omega

/-- The driver goes through the images of the machines of a run. -/
theorem exec_start (n : Nat) :
    exec ctx n (.start params cache) = ofMachine (Machine.exec ctx n (.start params cache)) := by
  induction n with
  | zero => rfl
  | succ n ih =>
      unfold exec at ih ⊢
      rw [Function.iterate_succ_apply', ih, step_ofMachine fun _ _ => enclosed_exec n,
        Machine.exec_succ]

/-- What the slots of a frame on the stack hold, wherever it stands. -/
theorem slots_ofMachine (m : Machine) :
    (∀ a ∈ (ofMachine m).frames.tail, a.waiting.isSome ∧ a.returned = none) ∧
      ∀ a ∈ (ofMachine m).frames, a.nested = none ∧ (a.returned.isSome → a.waiting.isSome) := by
  rcases exists_top m with empty | ⟨top, below, slots, none_asked, awaits⟩
  · simp [empty]
  · have waits : ∀ a ∈ below.map ofSuspended, ∃ suspended, ofSuspended suspended = a := by
      intro a among
      obtain ⟨suspended, -, same⟩ := List.mem_map.1 among
      exact ⟨suspended, same⟩
    rw [slots]
    refine ⟨fun a among => ?_, fun a among => ?_⟩
    · obtain ⟨suspended, rfl⟩ := waits a among
      exact ⟨rfl, rfl⟩
    · rcases List.mem_cons.1 among with rfl | among
      · exact ⟨none_asked, awaits⟩
      · obtain ⟨suspended, rfl⟩ := waits a among
        exact ⟨rfl, fun _ => rfl⟩

theorem inStep_exec (n : Nat) :
    (ofMachine (Machine.exec ctx n (.start params cache))).InStep ctx := by
  have frames := frames_ofMachine (Machine.exec ctx n (.start params cache))
  have length := congrArg List.length frames
  rw [List.length_map] at length
  have slots := slots_ofMachine (Machine.exec ctx n (.start params cache))
  refine ⟨?_, ?_, fun a below within => ?_, slots.1, fun a among => (slots.2 a among).2,
    fun a among => (slots.2 a among).1⟩
  · rw [overlay_ofMachine, length]
    exact Machine.even_exec rfl n
  · rw [length]
    exact (Machine.length_openFrames_le ctx params cache n).1
  · have inner := within.map (·.frame)
    rw [frames] at inner
    rw [Machine.depth_exec rfl n inner, List.length_map]

/-- The driver has finished when the machine has a result. -/
theorem phase_ofMachine {m : Machine} {result : Result} :
    (ofMachine m).phase = .finished result ↔ m.result? = some result := by
  obtain ⟨⟨waiting, overlay, cache⟩, control⟩ := m
  cases control with
  | returning other =>
      cases waiting with
      | nil => simp [ofMachine, handUp, Machine.result?]
      | cons nearest rest => simp [ofMachine, handUp, Machine.result?]
  | _ => simp [ofMachine, Machine.result?]

theorem entering_ofMachine {m : Machine} {entered : Params}
    (due : (ofMachine m).phase = .turn (some entered)) : m.control = .enter entered := by
  obtain ⟨⟨waiting, overlay, cache⟩, control⟩ := m
  cases control with
  | enter params =>
      cases due
      rfl
  | returning other => cases waiting <;> cases due
  | _ => cases due

/-- When the driver has finished, no frames are open and one scope is left. -/
theorem finished_exec {n : Nat} {result : Result}
    (finished : (ofMachine (Machine.exec ctx n (.start params cache))).phase = .finished result) :
    (ofMachine (Machine.exec ctx n (.start params cache))).frames = [] ∧
      (Machine.exec ctx n (.start params cache)).overlay.outer = [] := by
  obtain ⟨returns, alone⟩ := Machine.result?_eq_some.1 (phase_ofMachine.1 finished)
  have closed : (Machine.exec ctx n (.start params cache)).openFrames = [] := by
    simp only [Machine.openFrames, returns, alone, List.map_nil]
  have even := Machine.even_start ctx params cache n
  rw [closed] at even
  refine ⟨?_, List.eq_nil_of_length_eq_zero even⟩
  rw [← List.map_eq_nil_iff (f := (·.frame)), frames_ofMachine, closed]

/-- A nested frame is not turned away for want of funds. -/
theorem turned_away_exec {n : Nat} {entered : Params} {cause : Trap}
    (enters : (Machine.exec ctx n (.start params cache)).control = .enter entered)
    (nested : (Machine.exec ctx n (.start params cache)).openFrames ≠ [])
    (refused : Machine.prepare ctx.host (Machine.exec ctx n (.start params cache)).overlay.enter
      entered = .error cause) :
    cause = .overflow ∨ cause = .invalidCodeAddress := by
  cases n with
  | zero => exact absurd rfl nested
  | succ n =>
      have moved := Machine.transition_exec ctx n (.start params cache)
      refine Machine.prepare_covered (fun pays => ?_) refused
      have unhidden :
          (Machine.exec ctx (n + 1) (.start params cache)).overlay.enter.balance ctx.host =
          (Machine.exec ctx (n + 1) (.start params cache)).overlay.balance ctx.host :=
        congrArg View.balances (Overlay.view_enter ctx.host _)
      rw [unhidden]
      exact moved.covered enters pays

/-- A run can be driven by one stack of frames with slots.  At every step the stack is the image of
the machine; its slots, scopes and depths are in step; none of the branches is taken that are there
for other states; and a frame that another frame starts is turned away only because its address is
taken or the payee cannot take the value.  When the run ends one scope is left, and that is what the
transaction comes to. -/
theorem frames_in_step (ctx : Context) (params : Params) (cache : JumpCache) :
    (∀ n,
      exec ctx n (.start params cache) = ofMachine (Machine.exec ctx n (.start params cache)) ∧
        (exec ctx n (.start params cache)).InStep ctx ∧
        ((exec ctx n (.start params cache)).step ctx).2 = [] ∧
        (∀ result, (exec ctx n (.start params cache)).phase = .finished result →
          (exec ctx n (.start params cache)).frames = [] ∧
            (exec ctx n (.start params cache)).overlay.outer = []) ∧
        ∀ entered cause, (exec ctx n (.start params cache)).phase = .turn (some entered) →
          (exec ctx n (.start params cache)).frames ≠ [] →
          Machine.prepare ctx.host (exec ctx n (.start params cache)).overlay.enter entered =
            .error cause →
          cause = .overflow ∨ cause = .invalidCodeAddress) ∧
      ∀ (σ : Type) (observe : σ → Event → σ) (cache' : JumpCache) (seen seen' : σ)
        (outcome : Outcome),
        executeObserved ctx observe cache params seen = .ok (outcome, cache', seen') →
        ∃ n, (exec ctx n (.start params cache)).phase = .finished outcome.result ∧
          (exec ctx n (.start params cache)).overlay.scopes = [outcome.effects] := by
  refine ⟨fun n => ?_, ?_⟩
  · rw [exec_start]
    refine ⟨rfl, inStep_exec n, ?_, fun result finished => ?_, fun entered cause due nested => ?_⟩
    · rw [step_ofMachine fun _ _ => enclosed_exec n]
    · rw [overlay_ofMachine]
      exact finished_exec finished
    · rw [overlay_ofMachine]
      refine turned_away_exec (entering_ofMachine due) ?_
      rw [← frames_ofMachine]
      simpa using nested
  · intro σ observe cache' seen seen' outcome ran
    obtain ⟨n, ended, effects⟩ := executeObserved_eq_ok ran
    have finished := phase_ofMachine.2 ended
    refine ⟨n, ?_, ?_⟩
    · rw [exec_start]
      exact finished
    · rw [exec_start, overlay_ofMachine, Overlay.scopes_eq, effects]
      have root := (finished_exec finished).2
      unfold Overlay.flatten
      rw [root]
      rfl

/-- A frame that sends one unit to the account 7. -/
def overpaying : Params where
  address := ⟨1⟩
  sender := ⟨2⟩
  origin := ⟨2⟩
  gas := 100000
  code := [0x60, 0x00, 0x80, 0x80, 0x80, 0x60, 0x01, 0x60, 0x07, 0x61, 0xff, 0xff, 0xf1]

/-- Where all accounts hold as much as there can be, the unit does not fit: the frame on top of the
stack is handed a trap. -/
theorem frames_in_step_overpaying :
    (exec (.uniform Word.maximum) 10 (.start overpaying ∅)).frames.map (·.returned) =
        [some (.trap .overflow)] ∧
      (exec (.uniform Word.maximum) 10 (.start overpaying ∅)).InStep (.uniform Word.maximum) := by
  obtain ⟨image, inStep, -⟩ := (frames_in_step (.uniform Word.maximum) overpaying ∅).1 10
  refine ⟨?_, inStep⟩
  decide +kernel

end FrameStack

end EvmLedger.Vm
