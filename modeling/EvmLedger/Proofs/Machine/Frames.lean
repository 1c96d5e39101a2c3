/-
# EvmLedger.Proofs.Machine.Frames -- laws about every frame that is open

A frame is open from the step that starts it to the step that closes it, and in
between it is changed in two ways only: it executes an instruction, or it takes
over the result of a frame that it waited for.  A property of frames that both
keep is a `FrameInvariant`; if frames have it when they start, every open frame
has it at any time of a run (`FrameInvariant.step`).  And every open frame was
started at some time of the run, and has not ended since (`opened_exec`).

A frame keeps the jump table that it was started with, which should be that of its
code (`Genuine`).  Tables come from the jump cache, which knows code by its digest
(`JumpCache.Knows`), so this asks that no two pieces of code that are met have the
same digest (`genuine_exec`).
-/
import EvmLedger.Proofs.Machine.Waiting
import Mathlib.Data.Set.Function

namespace EvmLedger.Vm

set_option autoImplicit false

namespace Machine

variable {ctx : Context} {m m' : Machine} {events : List Event}

/-- The frames that are open, innermost first. -/
def openFrames (m : Machine) : List Frame :=
  match m.control with
  | .running frame | .halting frame _ => frame :: m.waiting.map (·.frame)
  | .enter _ | .returning _ => m.waiting.map (·.frame)

/-- A machine that is handing on a result has no open frames but those that wait. -/
theorem length_openFrames {result : Result} (returns : m.control = .returning result) :
    m.openFrames.length = m.waiting.length := by
  simp only [openFrames, returns, List.length_map]

/-- A step opens a frame, closes one or leaves the open frames alone, or one of them goes on. -/
theorem Transition.openFrames (moved : Transition ctx m m' events) :
    (∃ frame, m.control = .enter frame.params ∧ frame.depth = m.openFrames.length ∧
        m'.openFrames = frame :: m.openFrames) ∨
      m'.openFrames <:+ m.openFrames ∨
      ∃ frame frame' rest, m.openFrames = frame :: rest ∧ m'.openFrames = frame' :: rest ∧
        frame.Continues frame' := by
  cases moved with
  | opened prepared known => exact Or.inl ⟨_, rfl, (List.length_map _).symm, rfl⟩
  | advanced fetched ran | suspended fetched ran =>
      have continues := ((Step.instruction_effect _).of_ok ran).frame
      exact Or.inr (Or.inr ⟨_, _, _, rfl, rfl, continues⟩)
  | halted fetched ran =>
      have continues := ((Step.instruction_effect _).of_error ran).frame
      exact Or.inr (Or.inr ⟨_, _, _, rfl, rfl, continues⟩)
  | resumed ready => exact Or.inr (Or.inr ⟨_, _, _, rfl, rfl, (resume_eq_ok ready).1⟩)
  | closed settled => exact Or.inr (Or.inl (List.suffix_cons _ _))
  | _ => exact Or.inr (Or.inl (List.suffix_refl _))

/-- The depth of an open frame is the number of frames below it. -/
theorem depth_exec (none_open : m.openFrames = []) (n : Nat) {frame : Frame} {below : List Frame}
    (within : frame :: below <:+ (exec ctx n m).openFrames) : frame.depth = below.length := by
  induction n generalizing frame below with
  | zero =>
      rw [exec_zero, none_open] at within
      cases List.suffix_nil.1 within
  | succ n ih =>
      have moved := transition_exec ctx n m
      rcases moved.openFrames with
        ⟨start, _, depth, opens⟩ | fewer | ⟨g, g', rest, was, is, continues⟩
      · rw [opens, List.suffix_cons_iff] at within
        rcases within with whole | within
        · cases whole
          exact depth
        · exact ih within
      · exact ih (within.trans fewer)
      · rw [is, List.suffix_cons_iff] at within
        rcases within with whole | within
        · cases whole
          rw [continues.depth]
          exact ih (was ▸ List.suffix_refl _)
        · refine ih ?_
          rw [was]
          exact within.trans (List.suffix_cons _ _)

theorem length_activations (m : Machine) : m.activations.length = m.openFrames.length := by
  unfold activations openFrames
  cases m.control <;> simp

/-- As many scopes are open besides the root scope as there are open frames. -/
theorem Transition.even (moved : Transition ctx m m' events)
    (even : m.overlay.depth = m.openFrames.length) : m'.overlay.depth = m'.openFrames.length := by
  unfold Overlay.depth at even ⊢
  rw [← length_activations] at even ⊢
  rcases moved.shift with ⟨params, opened, outer, _⟩ | ⟨same, outer, _⟩ |
      ⟨frame, halt, result, settled, _, popped, ended, overlay, _⟩
  · rw [opened, outer, Overlay.scopes_eq, List.length_cons, List.length_cons, even]
  · rw [same, outer, even]
  · rw [popped, List.length_cons, ← outer_settle ended] at even
    obtain ⟨parent, rest, nested⟩ := List.exists_cons_of_length_eq_add_one even
    rw [nested, List.length_cons, Nat.add_right_cancel_iff] at even
    rw [overlay]
    split
    · rw [Overlay.commit_of_outer nested, even]
    · rw [Overlay.discard_of_outer nested, even]

theorem even_exec (even : m.overlay.depth = m.openFrames.length) (n : Nat) :
    (exec ctx n m).overlay.depth = (exec ctx n m).openFrames.length := by
  induction n with
  | zero => exact even
  | succ n ih =>
      rw [exec_succ]
      exact (step_transition ctx _).even ih

/-- From the start on, as nothing is open then but the root scope. -/
theorem even_start (ctx : Context) (params : Params) (cache : JumpCache) (n : Nat) :
    (exec ctx n (.start params cache)).overlay.depth =
      (exec ctx n (.start params cache)).openFrames.length :=
  even_exec rfl n

/-! ## When a frame was started -/

/-- Before step `n` of the run of `m`, a frame was started with `params` on top of the open frames
`below`, and it has not ended. -/
def Opened (ctx : Context) (m : Machine) (n : Nat) (params : Params) (below : List Frame) : Prop :=
  ∃ i < n, (exec ctx i m).control = .enter params ∧ (exec ctx i m).openFrames = below ∧
    Ongoing ctx (exec ctx i m) (n - i)

/-- A frame that is open before a step has not ended by then. -/
theorem Ongoing.succ {k : Nat} {params : Params} {frame : Frame}
    (ongoing : Ongoing ctx m k) (enters : m.control = .enter params)
    (within : frame :: m.openFrames <:+ (exec ctx k m).openFrames) : Ongoing ctx m (k + 1) := by
  intro j earlier result returns level
  rcases Nat.lt_succ_iff_lt_or_eq.1 earlier with before | rfl
  · exact ongoing j before result returns level
  · -- the frame and those below it wait, and they are more than those below it
    have more := within.length_le
    have fewer : m.openFrames.length = m.waiting.length := by
      simp only [openFrames, enters, List.length_map]
    rw [length_openFrames returns, level, ← fewer, List.length_cons] at more
    exact absurd more (Nat.not_succ_le_self _)

/-- In the run of a machine without open frames, every open frame was started on top of those below
it.  What it had then, and keeps in every step that it stays open, it has. -/
theorem opened_with (none_open : m.openFrames = []) {P : Nat → Nat → Frame → Prop}
    (starts : ∀ n frame, (exec ctx n m).control = .enter frame.params →
      (exec ctx (n + 1) m).openFrames = frame :: (exec ctx n m).openFrames → P n (n + 1) frame)
    (stays : ∀ i n frame frame', i < n →
      frame :: (exec ctx i m).openFrames <:+ (exec ctx n m).openFrames →
      frame' :: (exec ctx i m).openFrames <:+ (exec ctx (n + 1) m).openFrames →
      P i n frame → P i (n + 1) frame')
    (n : Nat) {frame : Frame} {below : List Frame}
    (within : frame :: below <:+ (exec ctx n m).openFrames) :
    ∃ i < n, (exec ctx i m).control = .enter frame.params ∧ (exec ctx i m).openFrames = below ∧
      Ongoing ctx (exec ctx i m) (n - i) ∧ P i n frame := by
  induction n generalizing frame below with
  | zero =>
      rw [exec_zero, none_open] at within
      cases List.suffix_nil.1 within
  | succ n ih =>
      -- a frame that was open before the step, and what it is after it
      have kept : ∀ {g : Frame}, g :: below <:+ (exec ctx n m).openFrames →
          frame.params = g.params → ∃ i < n + 1, (exec ctx i m).control = .enter frame.params ∧
            (exec ctx i m).openFrames = below ∧ Ongoing ctx (exec ctx i m) (n + 1 - i) ∧
            P i (n + 1) frame := by
        intro g before params
        obtain ⟨i, earlier, enters, rfl, ongoing, holds⟩ := ih before
        have reached : exec ctx (n - i) (exec ctx i m) = exec ctx n m := by
          rw [← exec_add, Nat.add_sub_cancel' (Nat.le_of_lt earlier)]
        refine ⟨i, Nat.lt_succ_of_lt earlier, params ▸ enters, rfl, ?_,
          stays i n g frame earlier before within holds⟩
        rw [Nat.succ_sub (Nat.le_of_lt earlier)]
        exact ongoing.succ enters (reached ▸ before)
      have moved := transition_exec ctx n m
      rcases moved.openFrames with
        ⟨start, enters, _, opens⟩ | fewer | ⟨g, g', rest, was, is, continues⟩
      · have inner := within
        rw [opens, List.suffix_cons_iff] at inner
        rcases inner with whole | before
        · cases whole
          refine ⟨n, Nat.lt_succ_self n, enters, rfl, ?_, starts n _ enters opens⟩
          rw [Nat.add_sub_cancel_left]
          refine ongoing_one fun result returns => ?_
          rw [enters] at returns
          cases returns
        · exact kept before rfl
      · exact kept (within.trans fewer) rfl
      · have inner := within
        rw [is, List.suffix_cons_iff] at inner
        rcases inner with whole | before
        · cases whole
          exact kept (was ▸ List.suffix_refl _) continues.params
        · refine kept ?_ rfl
          rw [was]
          exact before.trans (List.suffix_cons _ _)

/-- In the run of a machine without open frames, every open frame was started on top of those below
it. -/
theorem opened_exec (none_open : m.openFrames = []) (n : Nat) {frame : Frame} {below : List Frame}
    (within : frame :: below <:+ (exec ctx n m).openFrames) :
    Opened ctx m n frame.params below := by
  obtain ⟨i, before, enters, same, ongoing, -⟩ := opened_with (P := fun _ _ _ => True) none_open
    (fun _ _ _ _ => trivial) (fun _ _ _ _ _ _ _ _ => trivial) n within
  exact ⟨i, before, enters, same, ongoing⟩

/-! ## What open frames have in common -/

/-- A property that a frame keeps when it executes an instruction and when it takes over a
result. -/
structure FrameInvariant (ctx : Context) (P : Frame → Prop) : Prop where
  executed : ∀ frame overlay code, frame.code[frame.pc]? = some code → P frame →
    Step.Meets (Step.instruction ctx code) ⟨frame, overlay, []⟩ (fun _ t => P t.frame)
      (fun _ t => P t.frame)
  resumed : ∀ frame frame' continuation result, P frame →
    resume frame continuation result = .ok frame' → P frame'

/-- What a frame has when it starts and then keeps is had by all frames that are open. -/
theorem FrameInvariant.step {P : Frame → Prop} (kept : FrameInvariant ctx P)
    (moved : Transition ctx m m' events)
    (opened : ∀ params, m.control = .enter params →
      P (.start params (m.cache.fetch params.code).1 m.waiting.length))
    (before : ∀ frame ∈ m.openFrames, P frame) : ∀ frame ∈ m'.openFrames, P frame := by
  cases moved with
  | opened prepared known =>
      have start := opened _ rfl
      rw [known] at start
      exact List.forall_mem_cons.2 ⟨start, before⟩
  | rejected refused => exact before
  | ended exhausted => exact before
  | advanced fetched ran | suspended fetched ran =>
      obtain ⟨current, others⟩ := List.forall_mem_cons.1 before
      exact List.forall_mem_cons.2 ⟨(kept.executed _ _ _ fetched current).of_ok ran, others⟩
  | halted fetched ran =>
      obtain ⟨current, others⟩ := List.forall_mem_cons.1 before
      exact List.forall_mem_cons.2 ⟨(kept.executed _ _ _ fetched current).of_error ran, others⟩
  | closed settled => exact (List.forall_mem_cons.1 before).2
  | resumed ready =>
      obtain ⟨nearest, others⟩ := List.forall_mem_cons.1 before
      exact List.forall_mem_cons.2 ⟨kept.resumed _ _ _ _ nearest ready, others⟩
  | overfull failed => exact before
  | idle => exact before

end Machine

/-! ## Every frame has its own jump table -/

/-- Whatever the cache holds is the jump table of one of some pieces of code, under its digest. -/
def JumpCache.Knows (cache : JumpCache) (codes : Set Bytes) : Prop :=
  ∀ key table, cache[key]? = some table →
    ∃ code ∈ codes, Crypto.keccak code = key ∧ table = .ofCode code

theorem JumpCache.knows_empty (codes : Set Bytes) : (∅ : JumpCache).Knows codes := by
  intro key table found
  rw [Std.HashMap.getElem?_empty] at found
  cases found

/-- The cache gives every piece of code its own table, as long as those it knows have different
digests. -/
theorem JumpCache.Knows.fetch {cache : JumpCache} {codes : Set Bytes} {code : Bytes}
    (knows : cache.Knows codes) (apart : codes.InjOn Crypto.keccak) (among : code ∈ codes) :
    (cache.fetch code).1 = .ofCode code ∧ (cache.fetch code).2.Knows codes := by
  unfold JumpCache.fetch
  dsimp only
  split
  · rename_i table found
    obtain ⟨other, known, same, rfl⟩ := knows _ _ found
    cases apart known among same
    exact ⟨rfl, knows⟩
  · refine ⟨rfl, fun key table found => ?_⟩
    rw [Std.HashMap.getElem?_insert] at found
    split at found
    · rename_i same
      cases found
      exact ⟨code, among, eq_of_beq same, rfl⟩
    · exact knows key table found

/-- A frame that knows the jump destinations of the code it was started with. -/
def Frame.Genuine (frame : Frame) : Prop := frame.jumps = .ofCode frame.params.code

theorem Frame.Genuine.of_continues {frame later : Frame} (genuine : frame.Genuine)
    (continues : frame.Continues later) : later.Genuine := by
  unfold Genuine
  rw [continues.jumps, continues.params]
  exact genuine

namespace Machine

variable {ctx : Context} {m m' : Machine} {events : List Event}

/-- A step changes the jump cache only to look up the code of a frame that starts. -/
theorem Transition.knows {codes : Set Bytes} (moved : Transition ctx m m' events)
    (apart : codes.InjOn Crypto.keccak) (knows : m.cache.Knows codes)
    (among : ∀ params, m.control = .enter params → params.code ∈ codes) :
    m'.cache.Knows codes := by
  cases moved with
  | opened prepared known =>
      have after := (knows.fetch apart (among _ rfl)).2
      rw [known] at after
      exact after
  | _ => exact knows

/-- A frame keeps its jump table. -/
theorem genuine_invariant (ctx : Context) : FrameInvariant ctx Frame.Genuine where
  executed _ _ _ _ genuine :=
    (Step.instruction_effect _).mono (fun _ _ after => genuine.of_continues after.frame)
      fun _ _ after => genuine.of_continues after.frame
  resumed _ _ _ _ genuine ready := genuine.of_continues (resume_eq_ok ready).1

/-- All frames of a run have their own jump tables, as long as no two pieces of code that are met
have the same digest. -/
theorem genuine_exec {params : Params} {cache : JumpCache} {codes : Set Bytes} {n : Nat}
    (apart : codes.InjOn Crypto.keccak) (knows : cache.Knows codes)
    (met : ∀ j < n, ∀ entered, (exec ctx j (.start params cache)).control = .enter entered →
      entered.code ∈ codes) :
    (∀ frame ∈ (exec ctx n (.start params cache)).openFrames, frame.Genuine) ∧
      (exec ctx n (.start params cache)).cache.Knows codes := by
  induction n with
  | zero => exact ⟨nofun, knows⟩
  | succ n ih =>
      obtain ⟨genuine, known⟩ := ih fun j before => met j (Nat.lt_succ_of_lt before)
      have among := met n (Nat.lt_succ_self n)
      have moved := transition_exec ctx n (.start params cache)
      refine ⟨(genuine_invariant ctx).step moved (fun entered enters => ?_) genuine,
        moved.knows apart known among⟩
      exact (known.fetch apart (among entered enters)).1

end Machine

end EvmLedger.Vm
