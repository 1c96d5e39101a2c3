/-
# EvmLedger.Proofs.Step.Gas -- what an instruction pays

Gas is accounted for by amounts set aside.  `Affords x before after` reads: a
frame that runs `x` with `before` units set aside, on top of its own gas, has at
least `after a` units set aside when `x` goes on with `a`, and never more than
it started with when `x` halts.  Paying sets aside, taking back uses up, and a
local computation changes nothing.

`Schedule.Charges` says of a price list that no instruction goes on for less
than a given amount, the stipend of a call with value included.  Under such a
list every instruction affords the frame it starts and that amount
(`instruction_affords`): with nothing to spare gas is not created, and with one
unit to spare it runs out.

A list may lack the price of a power.  Under one that has them all no instruction
tells that a price is missing (`instruction_priceFound`).
-/
import EvmLedger.Proofs.Schedule
import EvmLedger.Proofs.Step.Charge

namespace EvmLedger.Vm

set_option autoImplicit false

/-- The least price of an instruction that goes on, or that starts a frame, under a price list. -/
structure Schedule.Charges (schedule : Schedule) (least : Nat) : Prop where
  tier : ∀ tier price, tier ≠ .zero → schedule.tier? tier = some price → least ≤ price
  exp : ∀ exponent cost, schedule.expCost? exponent = some cost → least ≤ cost
  sha3 : ∀ size, least ≤ schedule.sha3Cost size
  extCodeHash : least ≤ schedule.extCodeHash
  sload : least ≤ schedule.sload
  sstore : ∀ current new, least ≤ (schedule.sstoreCost current new).1
  jumpDest : least ≤ schedule.jumpDest
  log : ∀ topics size, least ≤ schedule.logCost topics size
  create : ∀ kind size, least ≤ schedule.createCost kind size
  call : least ≤ schedule.call
  callValue : least + schedule.callStipend ≤
    Quantity.addSat schedule.call schedule.callValueTransfer

theorem Schedule.Charges.classPrice_le {schedule : Schedule} {least : Nat}
    (charges : schedule.Charges least) {tier : Tier} (costs : tier ≠ .zero)
    (fixed : tier ≠ .special) : least ≤ schedule.classPrice tier := by
  unfold Schedule.classPrice
  cases listed : schedule.tier? tier with
  | some price => exact charges.tier tier price costs listed
  | none =>
      cases tier with
      | special => exact absurd rfl fixed
      | _ => cases listed

/-- The gas that goes to the frame which an instruction starts. -/
def Flow.gas : Flow → Nat
  | .next => 0
  | .enter params _ => params.gas

namespace Step

variable {α β : Type}

/-- With `before` units set aside, at least `after a` are set aside when the computation goes on
with `a`; when it halts, nothing was gained. -/
def Affords (x : Step α) (before : Nat) (after : α → Nat) : Prop :=
  ∀ s, Meets x s (fun a t => t.frame.gas + after a ≤ s.frame.gas + before)
    (fun _ t => t.frame.gas ≤ s.frame.gas + before)

namespace Affords

variable {before : Nat} {after : α → Nat}

theorem mono {x : Step α} {more : Nat} {less : α → Nat} (affords : Affords x before after)
    (enough : before ≤ more) (fewer : ∀ a, less a ≤ after a) : Affords x more less := by
  intro s
  refine (affords s).mono (fun a t covered => ?_) (fun _ t covered => ?_)
  · have := fewer a
    omega
  · omega

theorem bind {x : Step β} {middle : β → Nat} {f : β → Step α} (first : Affords x before middle)
    (rest : ∀ b, Affords (f b) (middle b) after) : Affords (x >>= f) before after := by
  intro s
  rw [meets_bind_iff]
  refine (first s).mono (fun b t covered => ?_) (fun _ _ covered => covered)
  refine (rest b t).mono (fun a u later => ?_) (fun _ u later => ?_)
  · exact Nat.le_trans later covered
  · exact Nat.le_trans later covered

theorem pure {a : α} (enough : after a ≤ before) : Affords (pure a) before after :=
  fun s => Nat.add_le_add_left enough s.frame.gas

theorem throw (halt : Halt) : Affords (throw halt : Step α) before after :=
  fun _ => Nat.le_add_right _ _

/-- A local computation leaves alone what is set aside. -/
theorem ofLocal {x : Step α} (quiet : Respects Local x) : Affords x before fun _ => before :=
  fun _ => quiet.meets (fun _ _ related => Nat.add_le_add_right related.gas before)
    fun _ _ related => Nat.le_trans related.gas (Nat.le_add_right _ before)

theorem andThen {x : Step β} (first : Affords x before fun _ => before) {f : β → Step α}
    (rest : ∀ b, Affords (f b) before after) : Affords (x >>= f) before after :=
  first.bind rest

theorem skip {x : Step β} (quiet : Respects Local x) {f : β → Step α}
    (rest : ∀ b, Affords (f b) before after) : Affords (x >>= f) before after :=
  (ofLocal quiet).andThen rest

/-- A local computation whose value is known to satisfy a predicate. -/
theorem skipWith {x : Step β} {P : β → Prop} {f : β → Step α}
    (quiet : ∀ s, Meets x s (fun b t => Local s t ∧ P b) (fun _ t => Local s t))
    (rest : ∀ b, P b → Affords (f b) before after) : Affords (x >>= f) before after := by
  intro s
  rw [meets_bind_iff]
  refine (quiet s).mono (fun b t known => ?_) (fun _ t related => ?_)
  · obtain ⟨related, holds⟩ := known
    have cheaper := related.gas
    refine (rest b holds t).mono (fun a u later => ?_) (fun _ u later => ?_)
    · omega
    · omega
  · exact Nat.le_trans related.gas (Nat.le_add_right _ before)

end Affords

theorem pay_affords (amount before : Nat) :
    Affords (pay amount) before fun _ => before + amount := by
  intro s
  unfold pay Gas.pay?
  rw [meets_bind_iff, meets_get]
  by_cases short : s.frame.gas < amount
  · simp only [short, if_true]
    exact Nat.le_add_right _ before
  · simp only [short, if_false]
    show s.frame.gas - amount + (before + amount) ≤ s.frame.gas + before
    omega

theorem Affords.spend {amount before : Nat} {f : Unit → Step α} {after : α → Nat}
    (rest : Affords (f ()) (before + amount) after) : Affords (pay amount >>= f) before after :=
  (pay_affords amount before).bind fun _ => rest

theorem payPower_affords {schedule : Schedule} {least : Nat} (charges : schedule.Charges least)
    (exponent : Word) (before : Nat) :
    Affords (payPower schedule exponent) before fun _ => before + least := by
  unfold payPower
  split
  · rename_i cost priced
    have covers := charges.exp exponent cost priced
    exact (pay_affords cost before).mono (Nat.le_refl _) fun _ => Nat.add_le_add_left covers before
  · exact fun s => Nat.le_add_right _ before

theorem forward_affords (schedule : Schedule) (requested : Word) (before : Nat) :
    Affords (forward schedule requested) before fun forwarded => before + forwarded := by
  refine .skip .get fun s => .spend ?_
  exact .skip forgetReturnData_respects fun _ => .pure (Nat.le_refl _)

theorem takeBack_affords (amount before : Nat) :
    Affords (takeBack amount) (before + amount) fun _ => before := by
  intro s
  have back := Quantity.addSat_le s.frame.gas amount
  show Quantity.addSat s.frame.gas amount + before ≤ s.frame.gas + (before + amount)
  omega

/-- What was set aside for another frame goes back when that frame is given up. -/
theorem giveUp_affords {event : Event} (plain : event.isPlain = true) (forwarded before : Nat) :
    Affords (giveUp event forwarded) (before + forwarded) fun flow => flow.gas + before := by
  refine .skip (report_respects plain) fun _ => (takeBack_affords forwarded before).bind fun _ => ?_
  exact .skip (push_respects 0) fun _ => .pure (Nat.le_of_eq (Nat.zero_add before))

theorem modifyOverlay_affords (f : Overlay → Overlay) (before : Nat) :
    Affords (modifyOverlay f) before fun _ => before :=
  fun s => Nat.le_refl (s.frame.gas + before)

theorem tryOverlay_affords (change : Overlay → Except Trap Overlay) (before : Nat) :
    Affords (tryOverlay change) before fun _ => before :=
  fun s => meets_tryOverlay change (fun _ _ => Nat.le_refl (s.frame.gas + before))
    fun _ _ => Nat.le_add_right s.frame.gas before

/-! ## Instructions that pay their price in their own work -/

section Charges

variable {ctx : Context} {least : Nat}

theorem next_affords {work : Step Unit} {before : Nat}
    (affords : Affords work before fun _ => least) :
    Affords (next work) before fun flow => flow.gas + least :=
  affords.bind fun _ => .pure (Nat.le_of_eq (Nat.zero_add least))

/-- Work that never ends without halting the frame affords anything. -/
theorem next_affords_of_halts {work : Step Unit} {before : Nat} {after : Flow → Nat}
    (halts : ∀ least, Affords work before fun _ => least) : Affords (next work) before after :=
  (halts (after .next)).bind fun _ => .pure (Nat.le_refl _)

theorem callCost_covers (charges : ctx.schedule.Charges least) (kind : CallKind)
    (target : Address) (value : Word) (s : Exec) :
    Meets (callCost ctx kind target value) s
      (fun cost t => Local s t ∧ least + ctx.schedule.stipend value ≤ cost)
      (fun _ t => Local s t) := by
  have greatest := Quantity.addSat_lt ctx.schedule.call ctx.schedule.callValueTransfer
  have covered := charges.callValue
  unfold callCost Schedule.stipend
  by_cases zero : value = 0
  · simp only [zero, if_true]
    exact ⟨refl_of Local s, charges.call⟩
  · simp only [zero, if_false]
    rw [meets_bind_iff]
    refine (opensAccount_respects _ _ _).meets (fun opens t related => ?_) (fun _ _ related => related)
    cases opens with
    | false => exact ⟨related, covered⟩
    | true =>
        refine ⟨related, Nat.le_trans covered (Nat.le_min.2 ⟨Nat.le_add_right _ _, ?_⟩)⟩
        exact Nat.le_sub_one_of_lt greatest

theorem call_affords (charges : ctx.schedule.Charges least) (kind : CallKind) :
    Affords (call ctx kind) 0 fun flow => flow.gas + least := by
  refine .skip pop_respects fun requested => .skip pop_respects fun target => ?_
  refine .skip (callValue_respects kind) fun value => ?_
  refine .skip pop_respects fun inOffset => .skip pop_respects fun inSize => ?_
  refine .skip pop_respects fun outOffset => .skip pop_respects fun outSize => ?_
  refine .skip params_respects fun self => .skip (.require _ _) fun _ => ?_
  refine .skip (extent_respects _ _) fun inStop => .skip (extent_respects _ _) fun outStop => ?_
  refine .skip (growMemory_respects _ _) fun _ => ?_
  refine .skipWith (callCost_covers charges _ _ _) fun cost covers => .spend ?_
  refine (forward_affords _ _ _).bind fun forwarded => .skip .get fun now => ?_
  refine .skip (mayEnter_respects _ _ _ _) fun allowed => ?_
  cases allowed with
  | false =>
      exact (giveUp_affords rfl forwarded (0 + cost)).mono (Nat.le_refl _) fun flow => by omega
  | true =>
      refine .skip (readMemory_respects _ _) fun input => .skip (code_respects _ _) fun code => .pure ?_
      have handed := Quantity.addSat_le forwarded (ctx.schedule.stipend value)
      show Quantity.addSat forwarded (ctx.schedule.stipend value) + least ≤ 0 + cost + forwarded
      omega

theorem newAddress_affords (host : Host) (kind : CreateKind) (creator : Address) (salt : Word)
    (initCode : Bytes) (before : Nat) :
    Affords (newAddress host kind creator salt initCode) before fun _ => before := by
  cases kind with
  | create => exact .skip .get fun _ => (modifyOverlay_affords _ _).andThen fun _ => .pure (Nat.le_refl _)
  | create2 => exact .pure (Nat.le_refl _)

theorem create_affords (charges : ctx.schedule.Charges least) (kind : CreateKind) :
    Affords (create ctx kind) 0 fun flow => flow.gas + least := by
  refine .skip requireMutable_respects fun _ => .skip pop_respects fun value => ?_
  refine .skip pop_respects fun offset => .skip pop_respects fun size => ?_
  refine .skip (createSalt_respects kind) fun salt => .skip (touchMemory_respects _ _ _) fun range => ?_
  have covers := charges.create kind range.2
  refine .spend (.skip (readMemory_respects _ _) fun initCode => ?_)
  refine (forward_affords _ _ _).bind fun forwarded => ?_
  refine .skip params_respects fun self => .skip .get fun now => ?_
  refine .skip (mayEnter_respects _ _ _ _) fun allowed => ?_
  cases allowed with
  | false => exact (giveUp_affords rfl forwarded _).mono (Nat.le_refl _) fun flow => by omega
  | true =>
      refine (newAddress_affords _ _ _ _ _ _).bind fun address => .pure ?_
      show forwarded + least ≤ 0 + ctx.schedule.createCost kind range.2 + forwarded
      omega

theorem storeSlot_affords (charges : ctx.schedule.Charges least) :
    Affords (storeSlot ctx) 0 fun _ => least := by
  refine .skip requireMutable_respects fun _ => .skip pop_respects fun key => ?_
  refine .skip pop_respects fun value => .skip params_respects fun self => .skip .get fun now => ?_
  have covers := charges.sstore (now.overlay.storage ctx.host self.address key) value
  refine .spend ((modifyOverlay_affords _ _).mono (Nat.le_refl _) fun _ => ?_)
  exact Nat.le_trans covers (Nat.le_add_left _ 0)

theorem log_affords (charges : ctx.schedule.Charges least) (count : Nat) :
    Affords (log ctx.schedule count) 0 fun _ => least := by
  refine .skip requireMutable_respects fun _ => .skip pop_respects fun offset => ?_
  refine .skip pop_respects fun size => .skip (popMany_respects _) fun topics => ?_
  refine .skip (touchMemory_respects _ _ _) fun range => .spend ?_
  have covers := charges.log count range.2
  refine .skip (readMemory_respects _ _) fun data => .skip params_respects fun self => ?_
  refine (modifyOverlay_affords _ _).mono (Nat.le_refl _) fun _ => ?_
  exact Nat.le_trans covers (Nat.le_add_left _ 0)

theorem selfDestruct_affords (least : Nat) : Affords (selfDestruct ctx) 0 fun _ => least := by
  refine .skip requireMutable_respects fun _ => .skip pop_respects fun target => ?_
  refine .skip (pay_respects _) fun _ => .skip params_respects fun self => ?_
  refine (modifyOverlay_affords _ _).andThen fun _ => (tryOverlay_affords _ _).andThen fun _ => ?_
  refine (modifyOverlay_affords _ _).andThen fun _ => ?_
  exact .skip .get fun now => .skip (report_respects rfl) fun _ => .throw _

/-! ## The whole instruction set -/

/-- An instruction that stays inside its frame starts no other frame, so what its cost class took
is all that it pays for. -/
theorem body_affords_of_local {pc before : Nat} {instruction : Instruction}
    (stays : instruction.reachesOut = false) (enough : least ≤ before) :
    Affords (body ctx pc instruction) before fun flow => flow.gas + least := by
  have quiet := body_local ctx pc stays
  have plain : ∃ work, body ctx pc instruction = next work := by
    cases instruction with
    | sstore | log | create | call | selfDestruct => cases stays
    | _ => exact ⟨_, rfl⟩
  obtain ⟨work, same⟩ := plain
  rw [same] at quiet ⊢
  intro s
  have related := quiet s
  unfold next at related ⊢
  rw [meets_bind_iff] at related ⊢
  refine related.mono (fun _ t after => ?_) (fun _ t after => ?_)
  · have cheaper : t.frame.gas ≤ s.frame.gas := after.gas
    show t.frame.gas + (0 + least) ≤ s.frame.gas + before
    omega
  · exact Nat.le_trans after.gas (Nat.le_add_right _ before)

/-- Instructions of a cost class rely on its price, and the others pay in their own work. -/
theorem body_affords (charges : ctx.schedule.Charges least) (pc : Nat)
    (instruction : Instruction) :
    Affords (body ctx pc instruction) (ctx.schedule.classPrice instruction.shape.tier)
      fun flow => flow.gas + least := by
  -- paying an operand-dependent price leaves exactly that price set aside
  have paid : ∀ {amount before : Nat}, least ≤ amount → least ≤ before + amount :=
    fun covers => Nat.le_trans covers (Nat.le_add_left _ _)
  cases instruction with
  | stop => exact next_affords_of_halts fun _ => .throw _
  | ret | revert =>
      exact next_affords_of_halts fun _ => .skip (outputData_respects _) fun _ => .throw _
  | selfDestruct => exact next_affords_of_halts selfDestruct_affords
  | sstore => exact next_affords (storeSlot_affords charges)
  | log topics => exact next_affords (log_affords charges topics.val)
  | call kind => cases kind <;> exact call_affords charges _
  | create kind => cases kind <;> exact create_affords charges _
  | exp =>
      refine next_affords (.skip pop_respects fun base => .skip pop_respects fun exponent => ?_)
      refine (payPower_affords charges exponent _).bind fun _ => ?_
      refine (Affords.ofLocal (push_respects _)).mono (Nat.le_refl _) fun _ => ?_
      exact paid (Nat.le_refl least)
  | sha3 =>
      refine next_affords (.skip pop_respects fun offset => .skip pop_respects fun size => ?_)
      refine .skip (touchMemory_respects _ _ _) fun range => .spend ?_
      refine .skip (readMemory_respects _ _) fun data => ?_
      refine (Affords.ofLocal (push_respects _)).mono (Nat.le_refl _) fun _ => ?_
      exact paid (charges.sha3 range.2)
  | extCodeHash =>
      refine next_affords (.spend (.skip pop_respects fun target => .skip (code_respects _ _) fun _ => ?_))
      refine (Affords.ofLocal (push_respects _)).mono (Nat.le_refl _) fun _ => ?_
      exact paid charges.extCodeHash
  | sload =>
      refine next_affords (.spend (.skip pop_respects fun key => .skip .get fun now => ?_))
      refine .skip params_respects fun self => ?_
      refine (Affords.ofLocal (push_respects _)).mono (Nat.le_refl _) fun _ => ?_
      exact paid charges.sload
  | jumpDest =>
      refine next_affords ((pay_affords _ _).mono (Nat.le_refl _) fun _ => ?_)
      exact paid charges.jumpDest
  | _ => exact body_affords_of_local rfl (charges.classPrice_le nofun nofun)

/-- Whatever byte is executed, what goes to another frame is paid for, and so is the least
price. -/
theorem instruction_affords (charges : ctx.schedule.Charges least) (code : UInt8) :
    Affords (Step.instruction ctx code) 0 fun flow => flow.gas + least := by
  intro s
  cases decoded : Instruction.ofByte? code with
  | none => exact instruction_unknown decoded (Nat.le_refl _)
  | some instruction =>
      refine instruction_meets decoded (fun ready => ?_) fun _ _ => Nat.le_refl _
      -- the price of the class is what the work has set aside
      have whole : (s.begun code (ctx.schedule.classPrice instruction.shape.tier)).frame.gas +
          ctx.schedule.classPrice instruction.shape.tier = s.frame.gas :=
        Nat.sub_add_cancel ready.price
      have covered := body_affords charges s.frame.pc instruction
        (s.begun code (ctx.schedule.classPrice instruction.shape.tier))
      rw [whole] at covered
      exact covered

end Charges

/-! ## Missing prices -/

/-- No price was found missing between the two states. -/
def PriceFound (s t : Exec) : Prop := .unpriced ∈ t.events → .unpriced ∈ s.events

theorem PriceFound.report (s : Exec) {event : Event} (other : event ≠ .unpriced) :
    PriceFound s { s with events := event :: s.events } := by
  intro told
  exact (List.mem_cons.1 told).resolve_left fun same => other same.symm

instance : Tolerant PriceFound where
  refl _ := id
  trans _ _ _ first second := first ∘ second
  stack _ _ := id
  memory _ _ := id
  returnData _ _ := id
  gas _ _ _ := id
  report s event plain := by
    refine .report s fun same => ?_
    rw [same] at plain
    cases plain
  payment s _ _ := .report s nofun

instance : CounterBlind PriceFound where
  pc _ _ := id

instance : OverlayBlind PriceFound where
  overlay _ _ := id

theorem takeBack_priceFound (amount : Nat) : Respects PriceFound (takeBack amount) :=
  fun s => show Event.unpriced ∈ s.events → Event.unpriced ∈ s.events from id

/-- Where every power has a price, none is found missing. -/
theorem instruction_priceFound {ctx : Context}
    (priced : ∀ exponent, ctx.schedule.expCost? exponent ≠ none) (byte : UInt8) :
    Respects PriceFound (Step.instruction ctx byte) := by
  have blind : PriceBlind ctx.schedule PriceFound :=
    ⟨fun _ exponent missing => absurd missing (priced exponent)⟩
  exact instruction_respects takeBack_priceFound byte

end Step

/-! ## Price lists -/

/-- Nothing is given away for free where the stipend is covered by the price of moving value. -/
theorem Schedule.charges_zero {schedule : Schedule} (small : schedule.callStipend < Quantity.bound)
    (covered : schedule.callStipend ≤ schedule.call + schedule.callValueTransfer) :
    schedule.Charges 0 where
  tier _ _ _ _ := Nat.zero_le _
  exp _ _ _ := Nat.zero_le _
  sha3 _ := Nat.zero_le _
  extCodeHash := Nat.zero_le _
  sload := Nat.zero_le _
  sstore _ _ := Nat.zero_le _
  jumpDest := Nat.zero_le _
  log _ _ := Nat.zero_le _
  create _ _ := Nat.zero_le _
  call := Nat.zero_le _
  callValue := by
    rw [Nat.zero_add]
    exact Nat.le_min.2 ⟨covered, Nat.le_sub_one_of_lt small⟩

/-- No price is missing where that of the longest exponent is a quantity. -/
theorem Schedule.expCost?_ne_none {schedule : Schedule}
    (fits : schedule.exp + schedule.expByte * 32 < Quantity.bound) (exponent : Word) :
    schedule.expCost? exponent ≠ none := by
  have shorter := Nat.mul_le_mul_left schedule.expByte (Word.significantBytes_le exponent)
  rw [Ne, expCost?_eq_none]
  omega

/-- Under the Frontier prices every instruction that goes on costs at least one unit. -/
theorem Schedule.frontier_charges_one : Schedule.frontier.Charges 1 where
  tier tier price priced listed := by
    cases tier with
    | zero => exact absurd rfl priced
    | special => cases listed
    | _ =>
        cases listed
        decide
  exp exponent cost priced := by
    obtain ⟨sum, -⟩ := Schedule.frontier.expCost?_eq_some.1 priced
    have base : 10 ≤ 10 + 10 * exponent.significantBytes := Nat.le_add_right 10 _
    exact Nat.le_trans (by decide) (sum ▸ base)
  sha3 size := Quantity.addSat_pos (by decide)
  extCodeHash := by decide
  sload := by decide
  sstore current new := by
    show 1 ≤ if current = 0 ∧ new ≠ 0 then Schedule.frontier.sstoreSet
      else Schedule.frontier.sstoreReset
    split
    · decide
    · decide
  jumpDest := by decide
  log topics size := Quantity.addSat_pos (Quantity.addSat_pos (by decide))
  create kind size := by
    cases kind with
    | create => exact (by decide : 1 ≤ Schedule.frontier.create)
    | create2 => exact Quantity.addSat_pos (by decide)
  call := by decide
  callValue := by decide

end EvmLedger.Vm
