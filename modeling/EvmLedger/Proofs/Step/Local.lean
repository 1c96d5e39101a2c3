/-
# EvmLedger.Proofs.Step.Local -- instructions that stay inside their frame

Most instructions only compute: they change the stack, the memory, the program
counter or the return data of the running frame, they pay, and they may halt the
frame.  A relation between the states before and after that allows for all of
this but the program counter and memory is `Lenient`, and one that allows for
memory too is `Tolerant`.  Every building block of an instruction respects them
except the ones that jump, write to the overlay or give gas back, and except a
power without a price; a relation that does not look at the counter, the overlay or
missing prices is respected by those as well.

`Local` is what the computing instructions leave between the states before and
after, and `body_local` draws the line through the instruction set: outside of
`Instruction.reachesOut` the work of an instruction is local.  The instructions
that reach out are treated one by one elsewhere.
-/
import EvmLedger.Proofs.Step.Outcome

namespace EvmLedger.Vm

set_option autoImplicit false

/-- A later state of the same activation: what a frame was started with stays. -/
structure Frame.Continues (f g : Frame) : Prop where
  params : g.params = f.params
  code : g.code = f.code
  jumps : g.jumps = f.jumps
  depth : g.depth = f.depth

theorem Frame.Continues.refl (f : Frame) : f.Continues f := ⟨rfl, rfl, rfl, rfl⟩

theorem Frame.Continues.trans {f g h : Frame} (first : f.Continues g) (second : g.Continues h) :
    f.Continues h :=
  ⟨second.params.trans first.params, second.code.trans first.code,
    second.jumps.trans first.jumps, second.depth.trans first.depth⟩

/-- Whether an instruction may do more than compute inside its frame. -/
def Instruction.reachesOut : Instruction → Bool
  | .sstore | .log _ | .create _ | .call _ | .selfDestruct => true
  | _ => false

/-- Whether an instruction sets the program counter itself. -/
def Instruction.setsPc : Instruction → Bool
  | .jump | .jumpi | .push _ => true
  | _ => false

/-- Whether an instruction may read, write or grow memory. -/
def Instruction.usesMemory : Instruction → Bool
  | .sha3 | .callDataCopy | .codeCopy | .extCodeCopy | .returnDataCopy | .mload | .mstore
  | .mstore8 | .log _ | .ret | .revert | .create _ | .call _ => true
  | _ => false

/-- Whether an event tells neither of a payment for memory nor of a missing price. -/
def Event.isPlain : Event → Bool
  | .memoryPaid .. | .unpriced => false
  | _ => true

namespace Step

/-- A relation that no computation inside the frame breaks, as long as the program counter and memory
are left alone. -/
class Lenient (R : Exec → Exec → Prop) : Prop extends IsPreorder Exec R where
  stack : ∀ s stack, R s { s with frame := { s.frame with stack := stack } }
  returnData : ∀ s data, R s { s with frame := { s.frame with returnData := data } }
  gas : ∀ s left, left ≤ s.frame.gas → R s { s with frame := { s.frame with gas := left } }
  report : ∀ s (event : Event), event.isPlain = true → R s { s with events := event :: s.events }

/-- A relation that no computation inside the frame breaks, as long as the program counter is left
alone. -/
class Tolerant (R : Exec → Exec → Prop) : Prop extends Lenient R where
  memory : ∀ s memory, R s { s with frame := { s.frame with memory := memory } }
  payment : ∀ s depth amount, R s { s with events := .memoryPaid depth amount :: s.events }

/-- A relation that does not look at the program counter. -/
class CounterBlind (R : Exec → Exec → Prop) : Prop where
  pc : ∀ s pc, R s { s with frame := { s.frame with pc := pc } }

/-- A relation that does not look at the overlay. -/
class OverlayBlind (R : Exec → Exec → Prop) : Prop where
  overlay : ∀ s overlay, R s { s with overlay := overlay }

/-- A relation that does not break where a price list has no price. -/
class PriceBlind (schedule : Schedule) (R : Exec → Exec → Prop) : Prop where
  unpriced : ∀ s exponent, schedule.expCost? exponent = none →
    R s { s with events := .unpriced :: s.events }

/-- Only the running frame changed. -/
structure Quiet (s t : Exec) : Prop where
  frame : s.frame.Continues t.frame
  overlay : t.overlay = s.overlay

/-- Only the running frame changed, and it gained no gas. -/
structure Local (s t : Exec) : Prop extends Quiet s t where
  gas : t.frame.gas ≤ s.frame.gas

instance : Tolerant Quiet where
  refl s := ⟨.refl s.frame, rfl⟩
  trans _ _ _ first second :=
    ⟨first.frame.trans second.frame, second.overlay.trans first.overlay⟩
  stack _ _ := ⟨⟨rfl, rfl, rfl, rfl⟩, rfl⟩
  memory _ _ := ⟨⟨rfl, rfl, rfl, rfl⟩, rfl⟩
  returnData _ _ := ⟨⟨rfl, rfl, rfl, rfl⟩, rfl⟩
  gas _ _ _ := ⟨⟨rfl, rfl, rfl, rfl⟩, rfl⟩
  report s _ _ := ⟨.refl s.frame, rfl⟩
  payment s _ _ := ⟨.refl s.frame, rfl⟩

instance (schedule : Schedule) : PriceBlind schedule Quiet where
  unpriced s _ _ := ⟨.refl s.frame, rfl⟩

instance : Tolerant Local where
  refl s := ⟨refl_of Quiet s, Nat.le_refl _⟩
  trans _ _ _ first second :=
    ⟨trans_of Quiet first.toQuiet second.toQuiet, Nat.le_trans second.gas first.gas⟩
  stack s stack := ⟨Lenient.stack s stack, Nat.le_refl _⟩
  memory s memory := ⟨Tolerant.memory s memory, Nat.le_refl _⟩
  returnData s data := ⟨Lenient.returnData s data, Nat.le_refl _⟩
  gas s left le := ⟨Lenient.gas s left le, le⟩
  report s event plain := ⟨Lenient.report s event plain, Nat.le_refl _⟩
  payment s depth amount := ⟨Tolerant.payment s depth amount, Nat.le_refl _⟩

instance (schedule : Schedule) : PriceBlind schedule Local where
  unpriced s exponent missing := ⟨PriceBlind.unpriced s exponent missing, Nat.le_refl _⟩

instance : CounterBlind Local where
  pc _ _ := ⟨⟨⟨rfl, rfl, rfl, rfl⟩, rfl⟩, Nat.le_refl _⟩

theorem Respects.quiet {α : Type} {x : Step α} (respects : Respects Local x) : Respects Quiet x :=
  respects.mono fun _ _ related => related.toQuiet

section Lenient

variable {α : Type} {R : Exec → Exec → Prop} [Lenient R]

/-! ## Building blocks -/

theorem setStack_respects (stack : Stack) :
    Respects R (modifyFrame fun f => { f with stack := stack }) :=
  fun s => Lenient.stack s stack

theorem forgetReturnData_respects :
    Respects R (modifyFrame fun f => { f with returnData := [] }) :=
  fun s => Lenient.returnData s []

theorem report_respects {event : Event} (plain : event.isPlain = true) :
    Respects R (report event) :=
  fun s => Lenient.report s event plain

theorem params_respects : Respects R params := .bind .get fun _ => .pure _

theorem trap_respects (cause : Trap) : Respects R (trap cause : Step α) := .throw _

theorem requireMutable_respects : Respects R requireMutable := by
  refine .bind params_respects fun self => ?_
  exact .require _ _

theorem pop_respects : Respects R pop := by
  refine .bind .get fun s => ?_
  split
  · exact .bind (setStack_respects _) fun _ => .pure _
  · exact trap_respects _

theorem push_respects (w : Word) : Respects R (push w) := by
  refine .bind .get fun s => ?_
  split
  · exact setStack_respects _
  · exact trap_respects _

theorem unary_respects (f : Word → Word) : Respects R (unary f) := by
  refine .bind pop_respects fun a => ?_
  exact push_respects (f a)

theorem binary_respects (f : Word → Word → Word) : Respects R (binary f) := by
  refine .bind pop_respects fun a => ?_
  refine .bind pop_respects fun b => ?_
  exact push_respects (f a b)

theorem ternary_respects (f : Word → Word → Word → Word) : Respects R (ternary f) := by
  refine .bind pop_respects fun a => ?_
  refine .bind pop_respects fun b => ?_
  refine .bind pop_respects fun c => ?_
  exact push_respects (f a b c)

theorem popMany_respects (count : Nat) : Respects R (popMany count) := by
  induction count with
  | zero => exact .pure _
  | succ count ih =>
      refine .bind pop_respects fun w => ?_
      refine .bind ih fun rest => ?_
      exact .pure (w :: rest)

theorem pay_respects (amount : Nat) : Respects R (pay amount) := by
  intro s
  unfold pay Gas.pay?
  rw [meets_bind_iff, meets_get]
  by_cases short : s.frame.gas < amount
  · simp only [short, if_true]
    exact refl_of R s
  · simp only [short, if_false]
    exact Lenient.gas s _ (Nat.sub_le _ _)

theorem payPower_respects (schedule : Schedule) [PriceBlind schedule R] (exponent : Word) :
    Respects R (payPower schedule exponent) := by
  unfold payPower
  split
  · exact pay_respects _
  · rename_i missing
    intro s
    rw [meets_bind_iff, meets_report, meets_throw]
    exact PriceBlind.unpriced s exponent missing

theorem extent_respects (offset size : Word) : Respects R (extent offset size) := by
  unfold extent
  split
  · exact .pure _
  · exact .throw _

theorem readMemory_respects (offset size : Nat) : Respects R (readMemory offset size) :=
  .bind .get fun _ => .pure _

theorem balance_respects (host : Host) (address : Address) :
    Respects R (balance host address) :=
  .bind .get fun _ => .pure _

theorem code_respects (host : Host) (address : Address) : Respects R (code host address) := by
  refine .bind .get fun now => ?_
  refine .ite ?_ (.pure _)
  refine .bind (report_respects rfl) fun _ => ?_
  exact .pure _

theorem callValue_respects (kind : CallKind) : Respects R (callValue kind) :=
  .ite pop_respects (.pure _)

theorem createSalt_respects (kind : CreateKind) : Respects R (createSalt kind) :=
  .ite pop_respects (.pure _)

theorem opensAccount_respects (host : Host) (kind : CallKind) (target : Address) :
    Respects R (opensAccount host kind target) := by
  refine .ite ?_ (.pure _)
  refine .bind (code_respects host target) fun code => ?_
  refine .bind (balance_respects host target) fun funds => ?_
  exact .pure _

theorem callCost_respects (ctx : Context) (kind : CallKind) (target : Address) (value : Word) :
    Respects R (callCost ctx kind target value) := by
  refine .ite (.pure _) ?_
  refine .bind (opensAccount_respects ctx.host kind target) fun opens => ?_
  exact .ite (.pure _) (.pure _)

theorem mayEnter_respects (ctx : Context) (depth : Nat) (address : Address) (value : Word) :
    Respects R (mayEnter ctx depth address value) :=
  .bind (balance_respects _ _) fun _ => .pure _

theorem forward_respects (schedule : Schedule) (requested : Word) :
    Respects R (forward schedule requested) := by
  refine .bind .get fun now => ?_
  refine .bind (pay_respects _) fun _ => ?_
  exact .bind forgetReturnData_respects fun _ => .pure _

/-- Giving up on a frame hands its gas back. -/
theorem giveUp_respects (back : ∀ amount, Respects R (takeBack amount)) {event : Event}
    (plain : event.isPlain = true) (forwarded : Nat) :
    Respects R (giveUp event forwarded) := by
  refine .bind (report_respects plain) fun _ => ?_
  refine .bind (back forwarded) fun _ => ?_
  refine .bind (push_respects 0) fun _ => ?_
  exact .pure _

/-! ## Instructions -/

theorem next_respects {work : Step Unit} (quiet : Respects R work) :
    Respects R (next work) :=
  .bind quiet fun _ => .pure _

/-- Outside of memory, an instruction that neither reaches out nor sets the program counter only
computes. -/
theorem body_respects_of_memoryless (ctx : Context) [PriceBlind ctx.schedule R] (pc : Nat)
    {instruction : Instruction} (stays : instruction.reachesOut = false)
    (straight : instruction.setsPc = false)
    (memoryless : instruction.usesMemory = false) : Respects R (body ctx pc instruction) := by
  cases instruction with
  | sstore | log | create | call | selfDestruct => cases stays
  | jump | jumpi | push => cases straight
  | sha3 | callDataCopy | codeCopy | extCodeCopy | returnDataCopy | mload | mstore | mstore8 | ret
  | revert => cases memoryless
  | stop => exact next_respects (.throw _)
  | isZero | not => exact next_respects (unary_respects _)
  | addmod | mulmod => exact next_respects (ternary_respects _)
  | add | mul | sub | div | sdiv | mod | smod | signExtend | lt | gt | slt | sgt | eq | and | or
  | xor | byte | shl | shr | sar => exact next_respects (binary_respects _)
  | coinbase | timestamp | number | difficulty | gasLimit | chainId | pc =>
      exact next_respects (push_respects _)
  | address | origin | caller | callValue | callDataSize | gasPrice =>
      exact next_respects (.bind params_respects fun _ => push_respects _)
  | codeSize | returnDataSize | msize | gas => exact next_respects (.bind .get fun _ => push_respects _)
  | exp =>
      refine next_respects (.bind pop_respects fun base => ?_)
      refine .bind pop_respects fun exponent => ?_
      refine .bind (payPower_respects _ _) fun _ => ?_
      exact push_respects (base.exp exponent)
  | balance =>
      refine next_respects (.bind pop_respects fun target => ?_)
      refine .bind (balance_respects _ _) fun funds => ?_
      exact push_respects funds
  | selfBalance =>
      refine next_respects (.bind params_respects fun self => ?_)
      refine .bind (balance_respects _ _) fun funds => ?_
      exact push_respects funds
  | callDataLoad =>
      refine next_respects (.bind pop_respects fun offset => ?_)
      refine .bind params_respects fun self => ?_
      exact push_respects _
  | extCodeSize =>
      refine next_respects (.bind pop_respects fun target => ?_)
      refine .bind (code_respects _ _) fun code => ?_
      exact push_respects _
  | extCodeHash =>
      refine next_respects (.bind (pay_respects _) fun _ => ?_)
      refine .bind pop_respects fun target => ?_
      refine .bind (code_respects _ _) fun code => ?_
      exact push_respects _
  | blockHash =>
      refine next_respects (.bind (.map pop_respects _) fun _ => ?_)
      exact push_respects _
  | pop => exact next_respects (.map pop_respects _)
  | sload =>
      refine next_respects (.bind (pay_respects _) fun _ => ?_)
      refine .bind pop_respects fun key => ?_
      refine .bind .get fun now => ?_
      refine .bind params_respects fun self => ?_
      exact push_respects _
  | jumpDest => exact next_respects (pay_respects _)
  | dup n =>
      refine next_respects (.bind .get fun s => ?_)
      split
      · exact setStack_respects _
      · exact trap_respects _
  | swap n =>
      refine next_respects (.bind .get fun s => ?_)
      split
      · exact setStack_respects _
      · exact trap_respects _

/-! ## Instructions that set the program counter or write to the overlay -/

section CounterBlind

variable [CounterBlind R]

omit [Lenient R] in
theorem setPc_respects (f : Nat → Nat) :
    Respects R (modifyFrame fun frame => { frame with pc := f frame.pc }) :=
  fun s => CounterBlind.pc s (f s.frame.pc)

theorem jump_respects (target : Word) : Respects R (jump target) := by
  refine .bind .get fun s => ?_
  split
  · exact setPc_respects fun _ => _
  · exact trap_respects _

theorem pushData_respects (count : Nat) : Respects R (pushData count) := by
  refine .bind .get fun now => ?_
  refine .bind (push_respects _) fun _ => ?_
  exact setPc_respects (· + count)

theorem body_respects_of_setsPc (ctx : Context) (pc : Nat) {instruction : Instruction}
    (sets : instruction.setsPc = true) : Respects R (body ctx pc instruction) := by
  cases instruction with
  | jump => exact next_respects (.bind pop_respects fun target => jump_respects target)
  | jumpi =>
      refine next_respects (.bind pop_respects fun target => ?_)
      refine .bind pop_respects fun condition => ?_
      exact .ite (jump_respects target) (.pure _)
  | push n => exact next_respects (pushData_respects _)
  | _ => cases sets

end CounterBlind

section OverlayBlind

variable [OverlayBlind R]

omit [Lenient R] in
theorem modifyOverlay_respects (f : Overlay → Overlay) : Respects R (modifyOverlay f) :=
  fun s => OverlayBlind.overlay s (f s.overlay)

theorem tryOverlay_respects (change : Overlay → Except Trap Overlay) :
    Respects R (tryOverlay change) :=
  fun s => meets_tryOverlay change (fun overlay _ => OverlayBlind.overlay s overlay)
    fun _ _ => refl_of R s

theorem storeSlot_respects (ctx : Context) : Respects R (storeSlot ctx) := by
  refine .bind requireMutable_respects fun _ => .bind pop_respects fun key => ?_
  refine .bind pop_respects fun value => .bind params_respects fun self => .bind .get fun now => ?_
  exact .bind (pay_respects _) fun _ => modifyOverlay_respects _

theorem selfDestruct_respects (ctx : Context) : Respects R (selfDestruct ctx) := by
  refine .bind requireMutable_respects fun _ => .bind pop_respects fun target => ?_
  refine .bind (pay_respects _) fun _ => .bind params_respects fun self => ?_
  refine .bind (modifyOverlay_respects _) fun _ => .bind (tryOverlay_respects _) fun _ => ?_
  refine .bind (modifyOverlay_respects _) fun _ => .bind .get fun now => ?_
  exact .bind (report_respects rfl) fun _ => .throw _

theorem newAddress_respects (host : Host) (kind : CreateKind) (creator : Address) (salt : Word)
    (initCode : Bytes) : Respects R (newAddress host kind creator salt initCode) := by
  cases kind with
  | create => exact .bind .get fun _ => .bind (modifyOverlay_respects _) fun _ => .pure _
  | create2 => exact .pure _

end OverlayBlind

end Lenient

section Tolerant

variable {α : Type} {R : Exec → Exec → Prop} [Tolerant R]

/-! ## Memory -/

theorem modifyMemory_respects (f : Memory → Memory) : Respects R (modifyMemory f) :=
  fun s => Tolerant.memory s (f s.frame.memory)

theorem payMemory?_le {schedule : Schedule} {left words extent left' words' : Nat}
    (paid : Gas.payMemory? schedule left words extent = some (left', words')) : left' ≤ left := by
  simp only [Gas.payMemory?, Gas.pay?] at paid
  split at paid
  · cases paid; exact Nat.le_refl _
  · split at paid
    · cases paid
    · cases paid; exact Nat.sub_le _ _

theorem growMemory_respects (schedule : Schedule) (stop : Nat) :
    Respects R (growMemory schedule stop) := by
  refine .ite ?_ (.pure _)
  intro s
  rw [meets_bind_iff, meets_get]
  split
  · rename_i left words paid
    have told := Tolerant.payment (R := R) s s.frame.depth (s.frame.gas - left)
    have grown := trans_of R told (Tolerant.memory _ (s.frame.memory.expand (words * 32)))
    exact trans_of R grown (Lenient.gas _ left (payMemory?_le paid))
  · exact refl_of R s

theorem touchMemory_respects (schedule : Schedule) (offset size : Word) :
    Respects R (touchMemory schedule offset size) := by
  refine .bind (extent_respects offset size) fun stop => ?_
  refine .ite (.pure _) ?_
  refine .bind (growMemory_respects schedule stop) fun _ => ?_
  exact .pure _

theorem copyToMemory_respects (schedule : Schedule) (target offset size : Word)
    {source : Step Bytes} (quiet : Respects R source) :
    Respects R (copyToMemory schedule target offset size source) := by
  refine .bind (touchMemory_respects schedule target size) fun range => ?_
  refine .bind (pay_respects _) fun _ => ?_
  refine .bind quiet fun bytes => ?_
  exact modifyMemory_respects _

theorem outputData_respects (schedule : Schedule) : Respects R (outputData schedule) := by
  refine .bind pop_respects fun offset => ?_
  refine .bind pop_respects fun size => ?_
  refine .bind (touchMemory_respects schedule offset size) fun range => ?_
  exact readMemory_respects range.1 range.2

theorem copyReturnData_respects (schedule : Schedule) :
    Respects R (copyReturnData schedule) := by
  refine .bind pop_respects fun target => ?_
  refine .bind pop_respects fun offset => ?_
  refine .bind pop_respects fun size => ?_
  refine .bind .get fun now => ?_
  dsimp only
  split
  · exact trap_respects _
  · refine .bind (touchMemory_respects schedule target size) fun range => ?_
    refine .bind (pay_respects _) fun _ => ?_
    exact modifyMemory_respects _

/-- An instruction that neither reaches out nor sets the program counter only computes. -/
theorem body_respects (ctx : Context) [PriceBlind ctx.schedule R] (pc : Nat)
    {instruction : Instruction} (stays : instruction.reachesOut = false)
    (straight : instruction.setsPc = false) :
    Respects R (body ctx pc instruction) := by
  cases memory : instruction.usesMemory with
  | false => exact body_respects_of_memoryless ctx pc stays straight memory
  | true =>
      cases instruction with
      | log | create | call => cases stays
      | ret | revert => exact next_respects (.bind (outputData_respects _) fun _ => .throw _)
      | sha3 =>
          refine next_respects (.bind pop_respects fun offset => ?_)
          refine .bind pop_respects fun size => ?_
          refine .bind (touchMemory_respects _ offset size) fun range => ?_
          refine .bind (pay_respects _) fun _ => ?_
          refine .bind (readMemory_respects _ _) fun data => ?_
          exact push_respects _
      | callDataCopy | codeCopy =>
          refine next_respects (.bind pop_respects fun target => ?_)
          refine .bind pop_respects fun offset => ?_
          refine .bind pop_respects fun size => ?_
          refine copyToMemory_respects _ target offset size ?_
          exact .bind params_respects fun self => .pure _
      | extCodeCopy =>
          refine next_respects (.bind pop_respects fun account => ?_)
          refine .bind pop_respects fun target => ?_
          refine .bind pop_respects fun offset => ?_
          refine .bind pop_respects fun size => ?_
          exact copyToMemory_respects _ target offset size (code_respects _ _)
      | returnDataCopy => exact next_respects (copyReturnData_respects _)
      | mload =>
          refine next_respects (.bind pop_respects fun offset => ?_)
          refine .bind (touchMemory_respects _ offset 32) fun range => ?_
          refine .bind .get fun now => ?_
          exact push_respects _
      | mstore | mstore8 =>
          refine next_respects (.bind pop_respects fun offset => ?_)
          refine .bind pop_respects fun value => ?_
          refine .bind (touchMemory_respects _ offset _) fun range => ?_
          exact modifyMemory_respects _
      | _ => cases memory

/-- A call writes nothing itself. -/
theorem call_respects (back : ∀ amount, Respects R (takeBack amount)) (ctx : Context)
    (kind : CallKind) : Respects R (call ctx kind) := by
  refine .bind pop_respects fun requested => .bind pop_respects fun target => ?_
  refine .bind (callValue_respects kind) fun value => ?_
  refine .bind pop_respects fun inOffset => .bind pop_respects fun inSize => ?_
  refine .bind pop_respects fun outOffset => .bind pop_respects fun outSize => ?_
  refine .bind params_respects fun self => .bind (.require _ _) fun _ => ?_
  refine .bind (extent_respects _ _) fun inStop => .bind (extent_respects _ _) fun outStop => ?_
  refine .bind (growMemory_respects _ _) fun _ => ?_
  refine .bind (callCost_respects _ _ _ _) fun cost => .bind (pay_respects cost) fun _ => ?_
  refine .bind (forward_respects _ _) fun forwarded => .bind .get fun now => ?_
  refine .bind (mayEnter_respects _ _ _ _) fun allowed => .ite ?_ (giveUp_respects back rfl _)
  exact .bind (readMemory_respects _ _) fun input => .bind (code_respects _ _) fun code => .pure _

section OverlayBlind

variable [OverlayBlind R]

theorem log_respects (schedule : Schedule) (count : Nat) : Respects R (log schedule count) := by
  refine .bind requireMutable_respects fun _ => .bind pop_respects fun offset => ?_
  refine .bind pop_respects fun size => .bind (popMany_respects _) fun topics => ?_
  refine .bind (touchMemory_respects _ _ _) fun range => .bind (pay_respects _) fun _ => ?_
  refine .bind (readMemory_respects _ _) fun data => .bind params_respects fun self => ?_
  exact modifyOverlay_respects _

theorem create_respects (back : ∀ amount, Respects R (takeBack amount)) (ctx : Context)
    (kind : CreateKind) : Respects R (create ctx kind) := by
  refine .bind requireMutable_respects fun _ => .bind pop_respects fun value => ?_
  refine .bind pop_respects fun offset => .bind pop_respects fun size => ?_
  refine .bind (createSalt_respects kind) fun salt => .bind (touchMemory_respects _ _ _) fun range => ?_
  refine .bind (pay_respects _) fun _ => .bind (readMemory_respects _ _) fun initCode => ?_
  refine .bind (forward_respects _ _) fun forwarded => .bind params_respects fun self => ?_
  refine .bind .get fun now => .bind (mayEnter_respects _ _ _ _) fun allowed => ?_
  refine .ite ?_ (giveUp_respects back rfl _)
  exact .bind (newAddress_respects _ _ _ _ _) fun address => .pure _

/-- Only jumps and pushes set the program counter in their own work. -/
theorem body_respects_of_straight (back : ∀ amount, Respects R (takeBack amount)) (ctx : Context)
    [PriceBlind ctx.schedule R] (pc : Nat) {instruction : Instruction}
    (straight : instruction.setsPc = false) : Respects R (body ctx pc instruction) := by
  cases reach : instruction.reachesOut with
  | false => exact body_respects ctx pc reach straight
  | true =>
      cases instruction with
      | sstore => exact next_respects (storeSlot_respects ctx)
      | log count => exact next_respects (log_respects _ _)
      | selfDestruct => exact next_respects (selfDestruct_respects ctx)
      | call kind => exact call_respects back ctx kind
      | create kind => exact create_respects back ctx kind
      | _ => cases reach

end OverlayBlind

end Tolerant

/-! ## Quiet and local instructions -/

theorem takeBack_quiet (amount : Nat) : Respects Quiet (takeBack amount) :=
  fun _ => ⟨⟨rfl, rfl, rfl, rfl⟩, rfl⟩

/-- An instruction that does not reach out is local. -/
theorem body_local (ctx : Context) (pc : Nat) {instruction : Instruction}
    (stays : instruction.reachesOut = false) : Respects Local (body ctx pc instruction) := by
  cases sets : instruction.setsPc with
  | false => exact body_respects ctx pc stays sets
  | true => exact body_respects_of_setsPc ctx pc sets

end Step

end EvmLedger.Vm
