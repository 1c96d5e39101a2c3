/-
# EvmLedger.Proofs.Step.Height -- what an instruction does to the stack

The table of the instruction set says how many words an instruction takes from the
stack and how many it leaves there; its work takes and puts words one at a time, in
several places.  `Takes` and `Trades` count along that work: a computation takes so
many words, or puts so many in their place, and does not touch those below.
`body_trades` says that the work of every instruction does as its entry says.  Only
copies and exchanges look at words further down, and there the words themselves are
told (`body_dup`, `body_swap`).

A frame may halt on the way for many reasons, but where the operands and the room
that the table asks for are there, the stack is none of them (`Spared`).
-/
import EvmLedger.Proofs.Overlay
import EvmLedger.Proofs.Step.Charge

namespace EvmLedger.Vm

set_option autoImplicit false

/-- Whether a halt says that the stack was too short or too full. -/
def Halt.blamesStack : Halt → Bool
  | .trap .stackUnderflow | .trap .outOfStack => true
  | _ => false

namespace Overlay

/-- Funds that cannot be moved are too small, or too large for the account that takes them. -/
theorem transfer_eq_error {host : Host} {o : Overlay} {payer payee : Address} {value : Word}
    {cause : Trap} (refused : o.transfer host payer payee value = .error cause) :
    cause = .insufficientFunds ∨ cause = .overflow := by
  unfold transfer at refused
  dsimp only at refused
  split at refused
  · injection refused with same
    exact Or.inl same.symm
  · split at refused
    · cases refused
    · split at refused
      · injection refused with same
        exact Or.inr same.symm
      · cases refused

theorem handOver_eq_error {host : Host} {o : Overlay} {address beneficiary : Address}
    {cause : Trap} (refused : o.handOver host address beneficiary = .error cause) :
    cause = .insufficientFunds ∨ cause = .overflow := by
  unfold handOver at refused
  dsimp only at refused
  split at refused
  · cases refused
  · exact transfer_eq_error refused

end Overlay

namespace Step

variable {α β : Type}

/-! ## Counting words -/

/-- From `s` the frame halts, but not for its stack, which has not grown. -/
structure Spared (s : Exec) (halt : Halt) (t : Exec) : Prop where
  cause : halt.blamesStack = false
  height : t.frame.stack.size ≤ s.frame.stack.size

/-- Where there are `count` words, the computation takes them and leaves the others. -/
def Takes (count : Nat) (x : Step α) : Prop :=
  ∀ s, count ≤ s.frame.stack.size →
    Meets x s (fun _ t => t.frame.stack.items = s.frame.stack.items.drop count) (Spared s)

/-- Where there are `args` words, and room for `ret` words in their place, the computation puts
`ret` words in their place, but for those that its value says are still to come, and leaves the
others. -/
def Trades (args ret : Nat) (owed : α → Nat) (x : Step α) : Prop :=
  ∀ s, args ≤ s.frame.stack.size → s.frame.stack.size - args + ret ≤ Stack.limit →
    Meets x s
      (fun a t => ∃ words : List Word, words.length + owed a = ret ∧
        t.frame.stack.items = words ++ s.frame.stack.items.drop args)
      (Spared s)

theorem size_of_drop {s t : Exec} {count : Nat}
    (taken : t.frame.stack.items = s.frame.stack.items.drop count) :
    t.frame.stack.size = s.frame.stack.size - count := by
  rw [Stack.size, taken, List.length_drop]
  rfl

theorem Spared.after {s t u : Exec} {halt : Halt} (spared : Spared t halt u)
    (le : t.frame.stack.size ≤ s.frame.stack.size) : Spared s halt u :=
  ⟨spared.cause, Nat.le_trans spared.height le⟩

namespace Takes

/-- The words that two computations take one after the other; the later ones are counted first, so
that the count of a sequence is found from its parts in order. -/
theorem bind {count more : Nat} {x : Step β} {f : β → Step α} (first : Takes count x)
    (rest : ∀ b, Takes more (f b)) : Takes (more + count) (x >>= f) := by
  intro s enough
  rw [meets_bind_iff]
  refine (first s (by omega)).mono (fun b t taken => ?_) (fun _ _ spared => spared)
  have height := size_of_drop taken
  refine (rest b t (by omega)).mono (fun _ u after => ?_) (fun _ u spared => ?_)
  · rw [after, taken, List.drop_drop, Nat.add_comm]
  · exact spared.after (by omega)

/-- The last words of a sequence are taken. -/
theorem followed {count : Nat} {x : Step β} {f : β → Step α} (first : Takes count x)
    (rest : ∀ b, Takes 0 (f b)) : Takes count (x >>= f) := by
  have whole := first.bind rest
  rwa [Nat.zero_add] at whole

theorem andThen {count args ret : Nat} {owed : α → Nat} {x : Step β} {f : β → Step α}
    (first : Takes count x) (rest : ∀ b, Trades args ret owed (f b)) :
    Trades (args + count) ret owed (x >>= f) := by
  intro s enough room
  rw [meets_bind_iff]
  refine (first s (by omega)).mono (fun b t taken => ?_) (fun _ _ spared => spared)
  have height := size_of_drop taken
  refine (rest b t (by omega) (by omega)).mono (fun a u traded => ?_) (fun _ u spared => ?_)
  · obtain ⟨words, count_eq, after⟩ := traded
    refine ⟨words, count_eq, ?_⟩
    rw [after, taken, List.drop_drop, Nat.add_comm]
  · exact spared.after (by omega)

/-- A computation that takes words and puts none in their place. -/
theorem trades {count : Nat} {x : Step α} (takes : Takes count x) :
    Trades count 0 (fun _ => 0) x :=
  fun s enough _ => (takes s enough).mono (fun _ _ taken => ⟨[], rfl, taken⟩)
    fun _ _ spared => spared

theorem ite {count : Nat} {condition : Prop} [Decidable condition] {x y : Step α}
    (yes : Takes count x) (no : Takes count y) : Takes count (if condition then x else y) := by
  split
  · exact yes
  · exact no

theorem map {count : Nat} {x : Step β} (takes : Takes count x) (f : β → α) :
    Takes count (f <$> x) := by
  intro s enough
  have taken := takes s enough
  unfold Meets at taken ⊢
  simp only [Functor.map, EStateM.map]
  cases result : x s with
  | ok b t => rw [result] at taken; exact taken
  | error halt t => rw [result] at taken; exact taken

/-! ### Computations that leave the stack alone -/

/-- A step that leaves the stack as it is takes no words. -/
theorem of_same {x : Step α}
    (same : ∀ s, Meets x s (fun _ t => t.frame.stack = s.frame.stack)
      (fun halt t => halt.blamesStack = false ∧ t.frame.stack = s.frame.stack)) :
    Takes 0 x := by
  intro s _
  refine (same s).mono (fun _ t same => ?_) (fun halt t same => ?_)
  · rw [same, List.drop_zero]
  · exact ⟨same.1, Nat.le_of_eq (congrArg Stack.size same.2)⟩

theorem pure (a : α) : Takes 0 (pure a) := of_same fun _ => rfl

theorem get : Takes 0 get := of_same fun _ => rfl

theorem throw {halt : Halt} (cause : halt.blamesStack = false) : Takes 0 (throw halt : Step α) :=
  of_same fun _ => ⟨cause, rfl⟩

theorem require (condition : Prop) [Decidable condition] {cause : Trap}
    (other : (Halt.trap cause).blamesStack = false) : Takes 0 (require condition cause) :=
  ite (pure ()) (throw other)

end Takes

theorem params_takes : Takes 0 params := .of_same fun _ => rfl

theorem report_takes (event : Event) : Takes 0 (report event) := .of_same fun _ => rfl

theorem modifyOverlay_takes (f : Overlay → Overlay) : Takes 0 (modifyOverlay f) :=
  .of_same fun _ => rfl

theorem modifyMemory_takes (f : Memory → Memory) : Takes 0 (modifyMemory f) :=
  .of_same fun _ => rfl

theorem takeBack_takes (amount : Nat) : Takes 0 (takeBack amount) := .of_same fun _ => rfl

theorem readMemory_takes (offset size : Nat) : Takes 0 (readMemory offset size) :=
  .of_same fun _ => rfl

theorem balance_takes (host : Host) (address : Address) : Takes 0 (balance host address) :=
  .of_same fun _ => rfl

theorem requireMutable_takes : Takes 0 requireMutable := by
  refine params_takes.bind fun self => ?_
  exact .require _ rfl

theorem pay_takes (amount : Nat) : Takes 0 (pay amount) := by
  refine Takes.get.bind fun now => ?_
  split
  · exact .of_same fun _ => rfl
  · exact .throw rfl

theorem payPower_takes (schedule : Schedule) (exponent : Word) :
    Takes 0 (payPower schedule exponent) := by
  unfold payPower
  split
  · exact pay_takes _
  · exact (report_takes _).bind fun _ => .throw rfl

theorem extent_takes (offset size : Word) : Takes 0 (extent offset size) := by
  unfold extent
  split
  · exact .pure _
  · exact .throw rfl

theorem growMemory_takes (schedule : Schedule) (stop : Nat) :
    Takes 0 (growMemory schedule stop) := by
  refine .ite (Takes.get.bind fun now => ?_) (.pure _)
  split
  · exact .of_same fun _ => rfl
  · exact .throw rfl

theorem touchMemory_takes (schedule : Schedule) (offset size : Word) :
    Takes 0 (touchMemory schedule offset size) := by
  refine (extent_takes offset size).bind fun stop => ?_
  refine .ite (.pure _) ?_
  exact (growMemory_takes schedule stop).bind fun _ => .pure _

theorem copyToMemory_takes (schedule : Schedule) (target offset size : Word) {source : Step Bytes}
    (takes : Takes 0 source) : Takes 0 (copyToMemory schedule target offset size source) := by
  refine (touchMemory_takes schedule target size).bind fun range => ?_
  refine (pay_takes _).bind fun _ => ?_
  refine takes.bind fun bytes => ?_
  exact modifyMemory_takes _

theorem code_takes (host : Host) (address : Address) : Takes 0 (code host address) := by
  refine Takes.get.bind fun now => ?_
  refine .ite ?_ (.pure _)
  exact (report_takes _).bind fun _ => .pure _

theorem jump_takes (target : Word) : Takes 0 (jump target) := by
  refine Takes.get.bind fun now => ?_
  split
  · exact .of_same fun _ => rfl
  · exact .throw rfl

theorem opensAccount_takes (host : Host) (kind : CallKind) (target : Address) :
    Takes 0 (opensAccount host kind target) := by
  refine .ite ?_ (.pure _)
  refine (code_takes host target).bind fun code => ?_
  exact (balance_takes host target).bind fun funds => .pure _

theorem callCost_takes (ctx : Context) (kind : CallKind) (target : Address) (value : Word) :
    Takes 0 (callCost ctx kind target value) := by
  refine .ite (.pure _) ?_
  refine (opensAccount_takes ctx.host kind target).bind fun opens => ?_
  exact .ite (.pure _) (.pure _)

theorem mayEnter_takes (ctx : Context) (depth : Nat) (address : Address) (value : Word) :
    Takes 0 (mayEnter ctx depth address value) :=
  (balance_takes _ _).bind fun _ => .pure _

theorem forward_takes (schedule : Schedule) (requested : Word) :
    Takes 0 (forward schedule requested) := by
  refine Takes.get.bind fun now => ?_
  refine (pay_takes _).bind fun _ => ?_
  have forgets : Takes 0 (modifyFrame fun f => { f with returnData := [] }) :=
    .of_same fun _ => rfl
  exact forgets.bind fun _ => .pure _

theorem newAddress_takes (host : Host) (kind : CreateKind) (creator : Address) (salt : Word)
    (initCode : Bytes) : Takes 0 (newAddress host kind creator salt initCode) := by
  cases kind with
  | create => exact Takes.get.bind fun now => (modifyOverlay_takes _).bind fun _ => .pure _
  | create2 => exact .pure _

/-! ### Computations that take words -/

theorem pop_takes : Takes 1 pop := by
  intro s enough
  cases items : s.frame.stack.items with
  | nil =>
      rw [Stack.size, items] at enough
      cases enough
  | cons top rest => exact (meets_pop items).2 rfl

theorem popMany_takes (count : Nat) : Takes count (popMany count) := by
  induction count with
  | zero => exact .pure _
  | succ count ih =>
      refine pop_takes.bind fun w => ?_
      exact ih.followed fun rest => .pure _

theorem outputData_takes (schedule : Schedule) : Takes 2 (outputData schedule) := by
  refine pop_takes.bind fun offset => ?_
  refine pop_takes.bind fun size => ?_
  refine (touchMemory_takes schedule offset size).bind fun range => ?_
  exact readMemory_takes range.1 range.2

theorem copyReturnData_takes (schedule : Schedule) : Takes 3 (copyReturnData schedule) := by
  refine pop_takes.bind fun target => ?_
  refine pop_takes.bind fun offset => ?_
  refine pop_takes.bind fun size => ?_
  refine Takes.get.bind fun now => ?_
  dsimp only
  split
  · exact .throw rfl
  · refine (touchMemory_takes schedule target size).bind fun range => ?_
    refine (pay_takes _).bind fun _ => ?_
    exact modifyMemory_takes _

theorem storeSlot_takes (ctx : Context) : Takes 2 (storeSlot ctx) := by
  refine requireMutable_takes.bind fun _ => ?_
  refine pop_takes.bind fun key => ?_
  refine pop_takes.bind fun value => ?_
  refine params_takes.bind fun self => ?_
  refine Takes.get.bind fun now => ?_
  refine (pay_takes _).bind fun _ => ?_
  exact modifyOverlay_takes _

theorem log_takes (schedule : Schedule) (count : Nat) : Takes (count + 2) (log schedule count) := by
  refine requireMutable_takes.bind fun _ => ?_
  refine pop_takes.bind fun offset => ?_
  refine pop_takes.bind fun size => ?_
  refine (popMany_takes _).followed fun topics => ?_
  refine (touchMemory_takes _ _ _).bind fun range => ?_
  refine (pay_takes _).bind fun _ => ?_
  refine (readMemory_takes _ _).bind fun data => ?_
  refine params_takes.bind fun self => ?_
  exact modifyOverlay_takes _

theorem selfDestruct_takes (ctx : Context) : Takes 1 (selfDestruct ctx) := by
  have moves : ∀ address beneficiary : Address,
      Takes 0 (tryOverlay (·.handOver ctx.host address beneficiary)) := by
    intro address beneficiary
    refine .of_same fun s => meets_tryOverlay _ (fun _ _ => rfl) fun cause refused => ⟨?_, rfl⟩
    rcases Overlay.handOver_eq_error refused with rfl | rfl <;> rfl
  refine requireMutable_takes.bind fun _ => ?_
  refine pop_takes.bind fun target => ?_
  refine (pay_takes _).bind fun _ => ?_
  refine params_takes.bind fun self => ?_
  refine (modifyOverlay_takes _).bind fun _ => ?_
  refine (moves _ _).bind fun _ => ?_
  refine (modifyOverlay_takes _).bind fun _ => ?_
  refine Takes.get.bind fun now => ?_
  exact (report_takes _).bind fun _ => .throw rfl

/-! ### Computations that put words -/

theorem push_trades (w : Word) : Trades 0 1 (fun _ => 0) (push w) := by
  intro s _ room
  rw [meets_push]
  refine ⟨fun _ => ⟨[w], rfl, rfl⟩, fun full => ?_⟩
  omega

theorem unary_trades (f : Word → Word) : Trades 1 1 (fun _ => 0) (unary f) := by
  refine pop_takes.andThen fun a => ?_
  exact push_trades (f a)

theorem binary_trades (f : Word → Word → Word) : Trades 2 1 (fun _ => 0) (binary f) := by
  refine pop_takes.andThen fun a => ?_
  refine pop_takes.andThen fun b => ?_
  exact push_trades (f a b)

theorem ternary_trades (f : Word → Word → Word → Word) : Trades 3 1 (fun _ => 0) (ternary f) := by
  refine pop_takes.andThen fun a => ?_
  refine pop_takes.andThen fun b => ?_
  refine pop_takes.andThen fun c => ?_
  exact push_trades (f a b c)

namespace Trades

variable {args ret : Nat}

/-- What follows the words that were put leaves them there. -/
theorem bind {owed : α → Nat} {x : Step β} {f : β → Step α}
    (first : Trades args ret (fun _ => 0) x)
    (rest : ∀ b t, Meets (f b) t (fun a u => owed a = 0 ∧ u.frame.stack = t.frame.stack)
      fun _ _ => False) :
    Trades args ret owed (x >>= f) := by
  intro s enough room
  rw [meets_bind_iff]
  refine (first s enough room).mono (fun b t traded => ?_) (fun _ _ spared => spared)
  obtain ⟨words, count_eq, after⟩ := traded
  refine (rest b t).mono (fun a u kept => ⟨words, ?_, ?_⟩) (fun _ _ never => never.elim)
  · rw [kept.1]
    exact count_eq
  · rw [kept.2, after]

theorem pure {owed : α → Nat} (a : α) (all : owed a = ret) : Trades 0 ret owed (pure a) :=
  fun _ _ _ => ⟨[], (Nat.zero_add _).trans all, rfl⟩

theorem ite {owed : α → Nat} {condition : Prop} [Decidable condition] {x y : Step α}
    (yes : Trades args ret owed x) (no : Trades args ret owed y) :
    Trades args ret owed (if condition then x else y) := by
  split
  · exact yes
  · exact no

end Trades

theorem pushData_trades (count : Nat) : Trades 0 1 (fun _ => 0) (pushData count) := by
  refine Takes.get.andThen fun now => ?_
  exact (push_trades _).bind fun _ _ => ⟨rfl, rfl⟩

/-! ## Instructions -/

end Step

/-- The words that an instruction still has to put on the stack: one, when another frame is started
first. -/
def Flow.owed : Flow → Nat
  | .next => 0
  | .enter .. => 1

namespace Step

theorem next_trades {args ret : Nat} {work : Step Unit}
    (trades : Trades args ret (fun _ => 0) work) :
    Trades args ret Flow.owed (next work) :=
  trades.bind fun _ _ => ⟨rfl, rfl⟩

theorem next_takes {args : Nat} {work : Step Unit} (takes : Takes args work) :
    Trades args 0 Flow.owed (next work) :=
  next_trades takes.trades

theorem giveUp_trades (event : Event) (forwarded : Nat) :
    Trades 0 1 Flow.owed (giveUp event forwarded) := by
  refine (report_takes event).andThen fun _ => ?_
  refine (takeBack_takes forwarded).andThen fun _ => ?_
  exact (push_trades 0).bind fun _ _ => ⟨rfl, rfl⟩

/-- The operands of a call for the value that it moves. -/
def valueOperands (kind : CallKind) : Nat :=
  if kind = .call ∨ kind = .callCode then 1 else 0

/-- The operands of a creation for its salt. -/
def saltOperands (kind : CreateKind) : Nat :=
  if kind = .create2 then 1 else 0

theorem args_call (kind : CallKind) :
    (Instruction.call kind).shape.args = 4 + valueOperands kind + 2 := by
  cases kind <;> rfl

theorem args_create (kind : CreateKind) :
    (Instruction.create kind).shape.args = 0 + saltOperands kind + 3 := by
  cases kind <;> rfl

theorem callValue_takes (kind : CallKind) : Takes (valueOperands kind) (callValue kind) := by
  unfold callValue valueOperands
  split
  · exact pop_takes
  · exact .pure 0

theorem createSalt_takes (kind : CreateKind) : Takes (saltOperands kind) (createSalt kind) := by
  unfold createSalt saltOperands
  split
  · exact pop_takes
  · exact .pure 0

theorem call_trades (ctx : Context) (kind : CallKind) :
    Trades (Instruction.call kind).shape.args 1 Flow.owed (call ctx kind) := by
  rw [args_call]
  refine pop_takes.andThen fun requested => ?_
  refine pop_takes.andThen fun target => ?_
  refine (callValue_takes kind).andThen fun value => ?_
  refine pop_takes.andThen fun inOffset => ?_
  refine pop_takes.andThen fun inSize => ?_
  refine pop_takes.andThen fun outOffset => ?_
  refine pop_takes.andThen fun outSize => ?_
  refine params_takes.andThen fun self => ?_
  refine (Takes.require _ rfl).andThen fun _ => ?_
  refine (extent_takes _ _).andThen fun inStop => ?_
  refine (extent_takes _ _).andThen fun outStop => ?_
  refine (growMemory_takes _ _).andThen fun _ => ?_
  refine (callCost_takes _ _ _ _).andThen fun cost => ?_
  refine (pay_takes cost).andThen fun _ => ?_
  refine (forward_takes _ _).andThen fun forwarded => ?_
  refine Takes.get.andThen fun now => ?_
  refine (mayEnter_takes _ _ _ _).andThen fun allowed => ?_
  refine .ite ?_ (giveUp_trades _ _)
  refine (readMemory_takes _ _).andThen fun input => ?_
  exact (code_takes _ _).andThen fun code => .pure _ rfl

theorem create_trades (ctx : Context) (kind : CreateKind) :
    Trades (Instruction.create kind).shape.args 1 Flow.owed (create ctx kind) := by
  rw [args_create]
  refine requireMutable_takes.andThen fun _ => ?_
  refine pop_takes.andThen fun value => ?_
  refine pop_takes.andThen fun offset => ?_
  refine pop_takes.andThen fun size => ?_
  refine (createSalt_takes kind).andThen fun salt => ?_
  refine (touchMemory_takes _ _ _).andThen fun range => ?_
  refine (pay_takes _).andThen fun _ => ?_
  refine (readMemory_takes _ _).andThen fun initCode => ?_
  refine (forward_takes _ _).andThen fun forwarded => ?_
  refine params_takes.andThen fun self => ?_
  refine Takes.get.andThen fun now => ?_
  refine (mayEnter_takes _ _ _ _).andThen fun allowed => ?_
  refine .ite ?_ (giveUp_trades _ _)
  exact (newAddress_takes _ _ _ _ _).andThen fun address => .pure _ rfl

section Copies

variable {s : Exec} (ctx : Context) (pc : Nat)

/-- A copy puts the word that it reaches on top. -/
theorem body_dup (n : Fin 16) (enough : n.val + 1 ≤ s.frame.stack.size)
    (room : s.frame.stack.size + 1 ≤ Stack.limit) :
    Meets (body ctx pc (.dup n)) s
      (fun flow t => flow = .next ∧ ∃ w, s.frame.stack.items[n.val]? = some w ∧
        t.frame.stack.items = w :: s.frame.stack.items)
      fun _ _ => False := by
  have reached : s.frame.stack.items[n.val]? = some (s.frame.stack.items.get ⟨n.val, enough⟩) :=
    List.getElem?_eq_getElem enough
  have fits : ¬Stack.limit ≤ s.frame.stack.size := by omega
  unfold body next
  rw [meets_bind_iff, meets_bind_iff, meets_get]
  simp only [Stack.dup, reached, Stack.push, fits, if_false, meets_modifyFrame, meets_pure]
  exact ⟨trivial, _, rfl, rfl⟩

/-- An exchange puts the word that it reaches on top, and the top in its place. -/
theorem body_swap (n : Fin 16) (enough : n.val + 2 ≤ s.frame.stack.size) :
    Meets (body ctx pc (.swap n)) s
      (fun flow t => flow = .next ∧ ∃ top w, s.frame.stack.items[0]? = some top ∧
        s.frame.stack.items[n.val + 1]? = some w ∧
        t.frame.stack.items = (s.frame.stack.items.set 0 w).set (n.val + 1) top)
      fun _ _ => False := by
  cases items : s.frame.stack.items with
  | nil =>
      rw [Stack.size, items] at enough
      cases enough
  | cons top rest =>
      have below : n.val < rest.length := by
        rw [Stack.size, items, List.length_cons] at enough
        omega
      have reached : rest[n.val]? = some (rest.get ⟨n.val, below⟩) :=
        List.getElem?_eq_getElem below
      unfold body next
      rw [meets_bind_iff, meets_bind_iff, meets_get]
      simp only [Stack.swap, items, reached, meets_modifyFrame, meets_pure]
      exact ⟨trivial, top, _, rfl, reached, rfl⟩

end Copies

/-- The work of an instruction takes and leaves as many words as its entry in the table says. -/
theorem body_trades (ctx : Context) (pc : Nat) (instruction : Instruction) :
    Trades instruction.shape.args instruction.shape.ret Flow.owed
      (body ctx pc instruction) := by
  cases instruction with
  | stop => exact next_takes (.throw rfl)
  | ret | revert => exact next_takes ((outputData_takes _).followed fun data => .throw rfl)
  | isZero | not => exact next_trades (unary_trades _)
  | addmod | mulmod => exact next_trades (ternary_trades _)
  | add | mul | sub | div | sdiv | mod | smod | signExtend | lt | gt | slt | sgt | eq | and | or
  | xor | byte | shl | shr | sar => exact next_trades (binary_trades _)
  | coinbase | timestamp | number | difficulty | gasLimit | chainId | pc =>
      exact next_trades (push_trades _)
  | address | origin | caller | callValue | callDataSize | gasPrice =>
      exact next_trades (params_takes.andThen fun self => push_trades _)
  | codeSize | returnDataSize | msize | gas =>
      exact next_trades (Takes.get.andThen fun now => push_trades _)
  | exp =>
      refine next_trades (pop_takes.andThen fun base => ?_)
      refine pop_takes.andThen fun exponent => ?_
      refine (payPower_takes _ exponent).andThen fun _ => ?_
      exact push_trades (base.exp exponent)
  | sha3 =>
      refine next_trades (pop_takes.andThen fun offset => ?_)
      refine pop_takes.andThen fun size => ?_
      refine (touchMemory_takes _ offset size).andThen fun range => ?_
      refine (pay_takes _).andThen fun _ => ?_
      refine (readMemory_takes _ _).andThen fun data => ?_
      exact push_trades _
  | balance =>
      refine next_trades (pop_takes.andThen fun target => ?_)
      refine (balance_takes _ _).andThen fun funds => ?_
      exact push_trades funds
  | selfBalance =>
      refine next_trades (params_takes.andThen fun self => ?_)
      refine (balance_takes _ _).andThen fun funds => ?_
      exact push_trades funds
  | callDataLoad =>
      refine next_trades (pop_takes.andThen fun offset => ?_)
      refine params_takes.andThen fun self => ?_
      exact push_trades _
  | callDataCopy | codeCopy =>
      refine next_takes (pop_takes.bind fun target => ?_)
      refine pop_takes.bind fun offset => ?_
      refine pop_takes.bind fun size => ?_
      refine copyToMemory_takes _ target offset size ?_
      exact params_takes.bind fun self => .pure _
  | extCodeSize =>
      refine next_trades (pop_takes.andThen fun target => ?_)
      refine (code_takes _ _).andThen fun code => ?_
      exact push_trades _
  | extCodeCopy =>
      refine next_takes (pop_takes.bind fun account => ?_)
      refine pop_takes.bind fun target => ?_
      refine pop_takes.bind fun offset => ?_
      refine pop_takes.bind fun size => ?_
      exact copyToMemory_takes _ target offset size (code_takes _ _)
  | extCodeHash =>
      refine next_trades ((pay_takes _).andThen fun _ => ?_)
      refine pop_takes.andThen fun target => ?_
      refine (code_takes _ _).andThen fun code => ?_
      exact push_trades _
  | returnDataCopy => exact next_takes (copyReturnData_takes _)
  | blockHash =>
      refine next_trades ((pop_takes.map _).andThen fun _ => ?_)
      exact push_trades _
  | pop => exact next_takes (pop_takes.map _)
  | mload =>
      refine next_trades (pop_takes.andThen fun offset => ?_)
      refine (touchMemory_takes _ offset 32).andThen fun range => ?_
      refine Takes.get.andThen fun now => ?_
      exact push_trades _
  | mstore | mstore8 =>
      refine next_takes (pop_takes.bind fun offset => ?_)
      refine pop_takes.bind fun value => ?_
      refine (touchMemory_takes _ offset _).bind fun range => ?_
      exact modifyMemory_takes _
  | sload =>
      refine next_trades ((pay_takes _).andThen fun _ => ?_)
      refine pop_takes.andThen fun key => ?_
      refine Takes.get.andThen fun now => ?_
      refine params_takes.andThen fun self => ?_
      exact push_trades _
  | sstore => exact next_takes (storeSlot_takes ctx)
  | jump => exact next_takes (pop_takes.bind fun target => jump_takes target)
  | jumpi =>
      refine next_takes (pop_takes.bind fun target => ?_)
      refine pop_takes.bind fun condition => ?_
      exact .ite (jump_takes target) (.pure _)
  | jumpDest => exact next_takes (pay_takes _)
  | push n => exact next_trades (pushData_trades _)
  | dup n =>
      intro s enough room
      dsimp only [Instruction.shape] at enough room
      refine (body_dup ctx pc n enough (by omega)).mono (fun flow t copied => ?_) fun _ _ => nofun
      obtain ⟨rfl, w, -, items⟩ := copied
      refine ⟨w :: s.frame.stack.items.take (n.val + 1), ?_, ?_⟩
      · rw [List.length_cons, List.length_take_of_le enough]
        rfl
      · rw [items, List.cons_append, Instruction.shape, List.take_append_drop]
  | swap n =>
      intro s enough room
      dsimp only [Instruction.shape] at enough
      refine (body_swap ctx pc n enough).mono (fun flow t exchanged => ?_) fun _ _ => nofun
      obtain ⟨rfl, top, w, -, -, items⟩ := exchanged
      have length : t.frame.stack.items.length = s.frame.stack.items.length := by
        rw [items, List.length_set, List.length_set]
      refine ⟨t.frame.stack.items.take (n.val + 2), ?_, ?_⟩
      · rw [List.length_take_of_le (length ▸ enough)]
        rfl
      · have deep : t.frame.stack.items.drop (n.val + 2) = s.frame.stack.items.drop (n.val + 2) := by
          rw [items, List.drop_set_of_lt (by omega), List.drop_set_of_lt (by omega)]
        rw [Instruction.shape, ← deep, List.take_append_drop]
  | log count => exact next_takes (log_takes _ _)
  | selfDestruct => exact next_takes (selfDestruct_takes ctx)
  | call kind => cases kind <;> exact call_trades ctx _
  | create kind => cases kind <;> exact create_trades ctx _

/-- An instruction that does not halt had its operands and its room, and has traded the ones for the
others; one that halts has put nothing on the stack. -/
theorem instruction_trades (ctx : Context) {byte : UInt8} {instruction : Instruction}
    (decoded : Instruction.ofByte? byte = some instruction) (s : Exec) :
    Meets (Step.instruction ctx byte) s
      (fun flow t => Ready ctx.schedule instruction.shape s.frame ∧
        ∃ words : List Word, words.length + flow.owed = instruction.shape.ret ∧
          t.frame.stack.items = words ++ s.frame.stack.items.drop instruction.shape.args)
      (fun _ t => t.frame.stack.size ≤ s.frame.stack.size) := by
  refine instruction_meets decoded (fun ready => ?_) fun _ _ => Nat.le_refl _
  have traded := body_trades ctx s.frame.pc instruction
    (s.begun byte (ctx.schedule.classPrice instruction.shape.tier)) ready.operands ready.room
  exact traded.mono (fun _ _ after => ⟨ready, after⟩) fun _ _ spared => spared.height

/-- Whatever byte is executed, there is room for the words that are still to come. -/
theorem instruction_height (ctx : Context) (byte : UInt8) (s : Exec) :
    Meets (Step.instruction ctx byte) s
      (fun flow t => t.frame.stack.size + flow.owed ≤ Stack.limit)
      (fun _ t => t.frame.stack.size ≤ s.frame.stack.size) := by
  cases decoded : Instruction.ofByte? byte with
  | none => exact instruction_unknown decoded (Nat.le_refl _)
  | some instruction =>
      refine (instruction_trades ctx decoded s).mono (fun flow t traded => ?_) fun _ _ le => le
      obtain ⟨ready, words, count, items⟩ := traded
      have operands := ready.operands
      have room := ready.room
      have height := congrArg List.length items
      rw [List.length_append, List.length_drop] at height
      simp only [Stack.size] at operands room ⊢
      omega

end Step

end EvmLedger.Vm
