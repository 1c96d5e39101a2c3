/-
# EvmLedger.Proofs.Machine.Deployment -- when code is stored over other code

A creation looks at its address when it starts and stores code there when it
ends.  In between there may be any number of other frames, and the address is
not looked at again.  What is true is that nothing but another deposit of code at
that very address comes in between: reverts and commits, in whatever order,
uncover no code either (`Vacant`).  So code is only ever replaced by a creation
that contains another creation at the same address.

The latter happens: a salted creation whose initialisation code calls its creator
again, which creates again with the same salt.
-/
import EvmLedger.Proofs.Machine.Frames
import EvmLedger.Proofs.Overlay.Code

namespace EvmLedger.Vm

set_option autoImplicit false

/-- No instruction stores code. -/
theorem Step.Footprint.codes {ctx : Context} {s t : Exec} {instruction : Option Instruction}
    (footprint : Footprint ctx s t instruction) :
    t.overlay.current.codes = s.overlay.current.codes := by
  cases footprint with
  | nothing same => rw [same]
  | slot key value refund _ _ wrote => rw [wrote]; exact Overlay.codes_refundIf _ _ _
  | log count entry _ _ wrote => rw [wrote]; rfl
  | nonce _ wrote => rw [wrote]; rfl
  | refused _ wrote => rw [wrote]; exact Overlay.codes_refundIf _ _ _
  | destroyed beneficiary moved _ handed wrote _ =>
      rw [wrote]
      exact (Overlay.codes_handOver handed).trans (Overlay.codes_refundIf _ _ _)

namespace Machine

/-- The code that a machine is about to store, and where. -/
def deposit? (ctx : Context) (m : Machine) : Option (Address × Bytes) :=
  match m.control with
  | .halting frame (.ret data) =>
      if frame.params.kind.isCreate ∧ ctx.schedule.depositCost data.length ≤ frame.gas then
        some (frame.params.address, data)
      else none
  | _ => none

variable {ctx : Context}

theorem deposit?_eq_some {m : Machine} {address : Address} {data : Bytes}
    (deposits : deposit? ctx m = some (address, data)) :
    ∃ frame, m.control = .halting frame (.ret data) ∧ frame.params.kind.isCreate = true ∧
      frame.params.address = address := by
  unfold deposit? at deposits
  split at deposits
  · rename_i frame returned halting
    split at deposits
    · rename_i pays
      cases deposits
      exact ⟨frame, halting, pays.1, rfl⟩
    · cases deposits
  · cases deposits

variable (ctx) in
/-- Closing a frame stores the code that it was about to store, and none otherwise. -/
theorem settle_eq_deposit (scene : Scene) (frame : Frame) (halt : Halt) :
    (settle ctx.schedule frame.params scene.overlay (halt.result frame.gas)).2 =
      match deposit? ctx ⟨scene, .halting frame halt⟩ with
      | some (address, data) => scene.overlay.setCode address data
      | none => scene.overlay := by
  unfold settle deposit?
  cases create : frame.params.kind.isCreate with
  | false => cases halt <;> simp [create]
  | true =>
      cases halt with
      | ret data =>
          by_cases poor : frame.gas < ctx.schedule.depositCost data.length
          · simp [Halt.result, deposit, poor, Nat.not_le.2 poor]
          · simp [Halt.result, deposit, poor, Nat.not_lt.1 poor, create]
      | _ => simp [Halt.result, deposit]

/-! ## Addresses without code -/

/-- Through whatever scopes may come to the top on top of `base`, an account has no code. -/
def Vacant (host : Host) (base : List Effects) (address : Address) (scopes : List Effects) : Prop :=
  ∀ inner, base <:+ inner → inner <:+ scopes → codeIn host inner address = []

section Vacant

variable {host : Host} {base : List Effects} {address : Address} {o o' : Overlay}

/-- Only what is read through all scopes is new when only the innermost one was written to. -/
theorem Vacant.of_current (vacant : Vacant host base address o.scopes) (outer : o'.outer = o.outer)
    (current : codeIn host o'.scopes address = []) : Vacant host base address o'.scopes := by
  intro inner above within
  rw [Overlay.scopes_eq, List.suffix_cons_iff, outer] at within
  rcases within with rfl | further
  · rw [← outer]
    exact current
  · exact vacant inner above (further.trans (List.suffix_cons _ _))

theorem Vacant.of_codes (vacant : Vacant host base address o.scopes) (within : base <:+ o.scopes)
    (outer : o'.outer = o.outer) (codes : o'.current.codes = o.current.codes) :
    Vacant host base address o'.scopes := by
  refine vacant.of_current outer ?_
  rw [Overlay.codeIn_of_codes outer codes]
  exact vacant o.scopes within (List.suffix_refl _)

theorem Vacant.enter (vacant : Vacant host base address o.scopes) (within : base <:+ o.scopes) :
    Vacant host base address o.enter.scopes := by
  intro inner above below
  rcases List.suffix_cons_iff.1 below with rfl | further
  · rw [codeIn_of_none rfl]
    exact vacant o.scopes within (List.suffix_refl _)
  · exact vacant inner above further

theorem Vacant.commit (vacant : Vacant host base address o.scopes) (within : base <:+ o.scopes) :
    Vacant host base address o.commit.scopes := by
  cases nested : o.outer with
  | nil =>
      unfold Overlay.commit
      rw [nested]
      exact vacant
  | cons parent rest =>
      intro inner above below
      rw [Overlay.commit_of_outer nested] at below
      rcases List.suffix_cons_iff.1 below with rfl | further
      · rw [codeIn_merge, ← nested]
        exact vacant o.scopes within (List.suffix_refl _)
      · have outer : inner <:+ o.outer := nested ▸ further.trans (List.suffix_cons _ _)
        exact vacant inner above (outer.trans (List.suffix_cons _ _))

theorem Vacant.discard (vacant : Vacant host base address o.scopes) (nonempty : base ≠ [])
    (nested : base <:+ o.outer) : Vacant host base address o.discard.scopes := by
  obtain ⟨parent, rest, outer⟩ := List.exists_cons_of_ne_nil (nested.ne_nil nonempty)
  intro inner above below
  rw [Overlay.discard_of_outer outer] at below
  have within : inner <:+ o.outer := outer ▸ below
  exact vacant inner above (within.trans (List.suffix_cons _ _))

end Vacant

/-- A creation that starts finds no code. -/
theorem code_of_prepare {host : Host} {overlay prepared : Overlay} {params : Params}
    (create : params.kind.isCreate = true) (ready : prepare host overlay params = .ok prepared) :
    overlay.code host params.address = [] := by
  unfold prepare at ready
  split at ready
  · cases ready
  · rename_i free
    simpa [create] using free

/-- Settling a frame stores no code at an address unless it says so beforehand. -/
theorem Vacant.settle {base : List Effects} {address : Address} {scene : Scene} {frame : Frame}
    {halt : Halt} {result : Result} {settled : Overlay}
    (vacant : Vacant ctx.host base address scene.overlay.scopes)
    (within : base <:+ scene.overlay.scopes)
    (bare : ∀ data, deposit? ctx ⟨scene, .halting frame halt⟩ = some (address, data) → data = [])
    (ended : Machine.settle ctx.schedule frame.params scene.overlay (halt.result frame.gas) =
      (result, settled)) : Vacant ctx.host base address settled.scopes := by
  have stored := settle_eq_deposit ctx scene frame halt
  rw [ended] at stored
  cases about : deposit? ctx ⟨scene, .halting frame halt⟩ with
  | none =>
      rw [about] at stored
      cases stored
      exact vacant
  | some deposited =>
      obtain ⟨account, data⟩ := deposited
      rw [about] at stored
      refine vacant.of_current (outer_settle ended) ?_
      rw [show settled = scene.overlay.setCode account data from stored, Overlay.codeIn_setCode]
      split
      · rename_i same
        exact bare data (same ▸ about)
      · exact vacant _ within (List.suffix_refl _)

/-- An address stays without code until code is stored there. -/
theorem Vacant.step {base : List Effects} {address : Address} {m m' : Machine}
    {events : List Event} (vacant : Vacant ctx.host base address m.overlay.scopes)
    (nonempty : base ≠ []) (within : base <:+ m.overlay.scopes)
    (nested : ∀ frame halt, m.control = .halting frame halt → base <:+ m.overlay.outer)
    (bare : ∀ data, deposit? ctx m = some (address, data) → data = [])
    (moved : Transition ctx m m' events) : Vacant ctx.host base address m'.overlay.scopes := by
  cases moved with
  | opened prepared known =>
      have entered := vacant.enter within
      have within := within.trans (List.suffix_cons Effects.empty _)
      rcases prepare_eq_ok prepared with rfl | paid
      · exact entered
      · exact entered.of_codes within (Overlay.outer_transfer paid) (Overlay.codes_transfer paid)
  | advanced fetched ran | suspended fetched ran =>
      have footprint := ((Step.instruction_effect _).of_ok ran).footprint
      exact vacant.of_codes within footprint.outer footprint.codes
  | halted fetched ran =>
      have footprint := ((Step.instruction_effect _).of_error ran).footprint
      exact vacant.of_codes within footprint.outer footprint.codes
  | @closed scene frame halt result settled ended =>
      have outer := outer_settle ended
      have inside : base <:+ settled.outer := by
        rw [outer]
        exact nested frame halt rfl
      have after := vacant.settle within bare ended
      dsimp only
      split
      · exact after.commit (inside.trans (List.suffix_cons _ _))
      · exact after.discard nonempty inside
  | rejected refused => exact vacant
  | ended exhausted => exact vacant
  | resumed ready => exact vacant
  | overfull failed => exact vacant
  | idle => exact vacant

/-- A frame that has not ended after its first step has been started. -/
theorem prepare_of_ongoing {m : Machine} {entered : Params} (enters : m.control = .enter entered)
    (ongoing : Ongoing ctx m 2) :
    ∃ prepared, prepare ctx.host m.overlay.enter entered = .ok prepared := by
  obtain ⟨scene, control⟩ := m
  cases enters
  cases ready : prepare ctx.host scene.overlay.enter entered with
  | ok prepared => exact ⟨prepared, rfl⟩
  | error cause =>
      have turned_away : exec ctx 1 ⟨scene, .enter entered⟩ = _ := next_enter_refused ready
      refine absurd ?_ (ongoing 1 Nat.one_lt_two (.trap cause) ?_)
      · rw [turned_away]
      · rw [turned_away]

/-- Until a frame ends, the scopes that were there before it lie under its own. -/
theorem scopes_below {m : Machine} {entered : Params} {k : Nat}
    (enters : m.control = .enter entered) (ongoing : Ongoing ctx m (k + 2)) :
    m.overlay.scopes <:+ (exec ctx (k + 1) m).overlay.outer := by
  have inside : Inside m entered (exec ctx (k + 1) m) :=
    inside_of_before_end enters fun i le => ongoing i (Nat.lt_succ_of_le le)
  obtain ⟨lower, inner, _, outer, _⟩ := inside.nested
  exact ⟨inner, outer.symm⟩

/-- As long as a creation runs, its address stays without code until code is stored there. -/
theorem vacant_exec {m : Machine} {entered : Params} {prepared : Overlay} {k : Nat}
    (enters : m.control = .enter entered) (create : entered.kind.isCreate = true)
    (ready : prepare ctx.host m.overlay.enter entered = .ok prepared)
    (ongoing : Ongoing ctx m (k + 1))
    (bare : ∀ j < k, ∀ data,
      deposit? ctx (exec ctx j m) = some (entered.address, data) → data = []) :
    Vacant ctx.host m.overlay.scopes entered.address (exec ctx k m).overlay.scopes := by
  induction k with
  | zero =>
      intro inner above below
      have free := code_of_prepare create ready
      rw [Overlay.code_eq_codeIn] at free
      rw [← above.eq_of_length_le below.length_le, ← codeIn_of_none (e := .empty) rfl]
      exact free
  | succ k ih =>
      have before := ih (ongoing.mono (Nat.le_succ _)) fun j lt => bare j (Nat.lt_succ_of_lt lt)
      have nothing := bare k (Nat.lt_succ_self k)
      have moved := transition_exec ctx k m
      cases k with
      | zero =>
          refine before.step (List.cons_ne_nil _ _) (List.suffix_refl _) ?_ nothing moved
          intro frame halt halting
          rw [exec_zero, enters] at halting
          cases halting
      | succ k =>
          have nested := scopes_below enters (ongoing.mono (Nat.le_succ _))
          exact before.step (List.cons_ne_nil _ _) (nested.trans (List.suffix_cons _ _))
            (fun _ _ _ => nested) nothing moved

/-- A creation that is about to end finds no code at its address, if no code was stored there since
it was started. -/
theorem code_of_bare {m : Machine} {entered : Params} {k : Nat} (enters : m.control = .enter entered)
    (create : entered.kind.isCreate = true) (ongoing : Ongoing ctx m (k + 2))
    (bare : ∀ j < k + 1, ∀ data,
      deposit? ctx (exec ctx j m) = some (entered.address, data) → data = []) :
    (exec ctx (k + 1) m).overlay.code ctx.host entered.address = [] := by
  obtain ⟨prepared, ready⟩ := prepare_of_ongoing enters (ongoing.mono (by omega))
  have vacant := vacant_exec enters create ready ongoing bare
  have below : m.overlay.scopes <:+ (exec ctx (k + 1) m).overlay.scopes :=
    (scopes_below enters ongoing).trans (List.suffix_cons _ _)
  rw [Overlay.code_eq_codeIn]
  exact vacant _ below (List.suffix_refl _)

/-- A machine of a run that is about to store code is about to close a creation that was started
earlier in the run. -/
theorem exists_creation {params : Params} {cache : JumpCache} {n : Nat} {address : Address}
    {data : Bytes} (deposits : deposit? ctx (exec ctx n (.start params cache)) = some (address, data)) :
    ∃ i k entered result, n = i + (k + 1) ∧
      (exec ctx i (.start params cache)).control = .enter entered ∧
      entered.kind.isCreate = true ∧ entered.address = address ∧
      EndsAfter ctx (exec ctx i (.start params cache)) (k + 2) result := by
  obtain ⟨frame, halting, create, rfl⟩ := deposit?_eq_some deposits
  have whole : frame :: (exec ctx n (.start params cache)).waiting.map (·.frame) <:+
      (exec ctx n (.start params cache)).openFrames := by
    simp only [openFrames, halting]
    exact List.suffix_refl _
  obtain ⟨i, before, enters, below, ongoing⟩ := opened_exec rfl n whole
  have level : (exec ctx n (.start params cache)).waiting.length =
      (exec ctx i (.start params cache)).waiting.length := by
    have lengths := congrArg List.length below
    simpa only [openFrames, enters, List.length_map] using lengths.symm
  -- count the steps of the creation from the machine that starts it
  obtain ⟨k, rfl⟩ : ∃ k, n = i + (k + 1) := ⟨n - i - 1, by omega⟩
  rw [Nat.add_sub_cancel_left] at ongoing
  rw [exec_add] at halting level
  obtain ⟨result, ends⟩ := endsAfter_of_halting ongoing halting level
  exact ⟨i, k, frame.params, result, rfl, enters, create, rfl, ends⟩

/-- Code is stored over other code only where code was stored since the creation was started.  A
machine of a run that is about to store code at an address is about to close a creation that was
started at that address earlier in the run.  And there is no code at the address yet, unless some
was stored there while that creation was running. -/
theorem deposit_vacant (ctx : Context) (params : Params) (cache : JumpCache) (n : Nat)
    (address : Address) (data : Bytes)
    (deposits : deposit? ctx (exec ctx n (.start params cache)) = some (address, data)) :
    ∃ i < n, ∃ entered result, (exec ctx i (.start params cache)).control = .enter entered ∧
      entered.kind.isCreate = true ∧ entered.address = address ∧
      EndsAfter ctx (exec ctx i (.start params cache)) (n + 1 - i) result ∧
      ((exec ctx n (.start params cache)).overlay.code ctx.host address = [] ∨
        ∃ j data', i < j ∧ j < n ∧ data' ≠ [] ∧
          deposit? ctx (exec ctx j (.start params cache)) = some (address, data')) := by
  obtain ⟨i, k, entered, result, rfl, enters, create, rfl, ends⟩ := exists_creation deposits
  refine ⟨i, by omega, entered, result, enters, create, rfl, ?_, ?_⟩
  · rw [show i + (k + 1) + 1 - i = k + 2 by omega]
    exact ends
  · by_cases replaced : ∃ j data', i < j ∧ j < i + (k + 1) ∧ data' ≠ [] ∧
        deposit? ctx (exec ctx j (.start params cache)) = some (entered.address, data')
    · exact Or.inr replaced
    · left
      rw [exec_add]
      refine code_of_bare enters create ends.ongoing fun j early data' stores => ?_
      by_contra nonempty
      -- the step that starts the creation stores nothing
      have later : j ≠ 0 := by
        rintro rfl
        obtain ⟨_, halting, _⟩ := deposit?_eq_some stores
        rw [exec_zero, enters] at halting
        cases halting
      rw [← exec_add] at stores
      exact replaced ⟨i + j, data', by omega, by omega, nonempty, stores⟩

/-- A transaction that creates a contract whose code is one byte. -/
def creating : Params where
  address := ⟨9⟩
  sender := .zero
  origin := .zero
  gas := 1000
  code := [0x60, 0x01, 0x60, 0x00, 0xf3]
  kind := .create .create

/-- The byte is stored at an address that the creation found without code, and where no other code
was stored. -/
theorem deposit_vacant_creating :
    deposit? (.uniform 0) (exec (.uniform 0) 4 (.start creating ∅)) = some (⟨9⟩, [0]) ∧
      (exec (.uniform 0) 4 (.start creating ∅)).overlay.code (Context.uniform 0).host ⟨9⟩ = [] := by
  have deposits : deposit? (.uniform 0) (exec (.uniform 0) 4 (.start creating ∅)) =
      some (⟨9⟩, [0]) := by
    decide +kernel
  have before : ∀ j < 4, deposit? (.uniform 0) (exec (.uniform 0) j (.start creating ∅)) = none := by
    decide +kernel
  obtain ⟨i, _, entered, result, _, _, _, _, free | ⟨j, data, _, early, _, stores⟩⟩ :=
    deposit_vacant (.uniform 0) creating ∅ 4 _ _ deposits
  · exact ⟨deposits, free⟩
  · rw [before j early] at stores
    cases stores

/-! ## Creating again inside a creation -/

/-- Initialisation code that calls its creator when it runs for the first time, and the account
zero after that.  It returns two bytes the first time, and then one. -/
def recalling : Bytes :=
  [0x60, 0x00, 0x54, 0x15, 0x60, 0x01, 0x60, 0x00, 0x55, 0x60, 0x00, 0x80, 0x80, 0x80, 0x80, 0x85,
    0x33, 0x02, 0x5a, 0xf1, 0x01, 0x60, 0x00, 0xf3]

/-- Code that makes a salted creation with that initialisation code, always with the same salt. -/
def recreating : Bytes :=
  0x77 :: recalling ++
    [0x60, 0x00, 0x52, 0x60, 0x00, 0x60, 0x18, 0x60, 0x08, 0x60, 0x00, 0xf5]

/-- A transaction that runs this code in the account 10. -/
def recreation : Params where
  address := ⟨10⟩
  sender := .zero
  origin := .zero
  gas := 200000
  code := recreating

/-- The creation stores its two bytes over the byte that was stored by the creation inside it. -/
theorem deposit_replaces :
    deposit? (.hosting 0 ⟨10⟩ recreating)
        (exec (.hosting 0 ⟨10⟩ recreating) 67 (.start recreation ∅)) =
        some (ContractAddress.salted ⟨10⟩ 0 recalling, [0, 0]) ∧
      (exec (.hosting 0 ⟨10⟩ recreating) 67 (.start recreation ∅)).overlay.code
        (Context.hosting 0 ⟨10⟩ recreating).host (ContractAddress.salted ⟨10⟩ 0 recalling) =
        [0] := by
  decide +kernel

end Machine

end EvmLedger.Vm
