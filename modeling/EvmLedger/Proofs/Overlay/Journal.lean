/-
# EvmLedger.Proofs.Overlay.Journal -- scopes leave what a flat journal leaves

What happens to an overlay is a sequence of operations: scopes are opened, kept
and forgotten, and in between there are writes.  The journal of such a sequence
(`journal`) are the writes that are left when every scope that is forgotten is
taken out, with everything from its opening on, and the marks of the other scopes
after that.  `journal_forgotten` and `journal_kept` are these two rules.

The main statement is that the scopes could have been done without: where every
exit closes a scope that was opened before, the writes of the journal, made one
after the other in a root scope, leave an overlay that answers all questions as
the scoped one does, and merges into the same effects (`run_eq_journal`).

Which writes survive is found by going through the sequence from its end
(`surviving`), with a count of the exits whose openings are still to come.  The
count is what the proof is by: with a count of `n` the scan yields what the overlay
holds once its `n` innermost scopes are forgotten (`flatten_forgetting`).
-/
import EvmLedger.Proofs.Overlay.Merge
import Mathlib.Data.List.Infix
import Mathlib.Data.List.Induction
import Mathlib.Logic.Function.Iterate

namespace EvmLedger.Vm

set_option autoImplicit false

/-! ## Operations -/

/-- A write of a frame. -/
inductive Write where
  | storage (contract : Address) (key value : Word)
  | balance (address : Address) (value : Word)
  /-- a transfer that is refused writes nothing -/
  | transfer (payer payee : Address) (value : Word)
  | code (address : Address) (code : Bytes)
  | incrementNonce (address : Address)
  | suicide (address : Address)
  | log (entry : Log)
  | refund (amount : Nat)
  deriving DecidableEq, Repr

/-- What can happen to an overlay. -/
inductive Operation where
  | enter
  | commit
  | discard
  | write (w : Write)
  deriving DecidableEq, Repr

namespace Operation

/-- Whether a scope is opened. -/
def isEnter : Operation → Bool
  | .enter => true
  | _ => false

/-- Whether a scope is closed. -/
def isExit : Operation → Bool
  | .commit => true
  | .discard => true
  | _ => false

/-- The write, where there is one. -/
def write? : Operation → Option Write
  | .write w => some w
  | _ => none

end Operation

/-- Every exit closes a scope that was opened before it. -/
def WellScoped (ops : List Operation) : Prop :=
  ∀ front ∈ ops.inits, front.countP Operation.isExit ≤ front.countP Operation.isEnter

instance : DecidablePred WellScoped := fun ops =>
  inferInstanceAs (Decidable (∀ front ∈ ops.inits,
    front.countP Operation.isExit ≤ front.countP Operation.isEnter))

theorem WellScoped.front {ops : List Operation} {op : Operation}
    (closed : WellScoped (ops ++ [op])) : WellScoped ops := by
  intro front among
  refine closed front ?_
  rw [List.mem_inits] at among ⊢
  exact among.trans (List.prefix_append ops [op])

/-- A scope that is closed was opened before. -/
theorem WellScoped.opened {ops : List Operation} {op : Operation}
    (closed : WellScoped (ops ++ [op])) (exit : op.isExit = true) :
    ops.countP Operation.isExit + 1 ≤ ops.countP Operation.isEnter := by
  have whole := closed (ops ++ [op]) (by rw [List.mem_inits])
  have enter : op.isEnter = false := by
    cases op <;> first | rfl | cases exit
  simpa [exit, enter] using whole

namespace Overlay

/-- Makes a write in the innermost scope. -/
def write (host : Host) (o : Overlay) : Write → Overlay
  | .storage contract key value => o.setStorage contract key value
  | .balance address value => o.setBalance address value
  | .transfer payer payee value =>
      match o.transfer host payer payee value with
      | .ok moved => moved
      | .error _ => o
  | .code address code => o.setCode address code
  | .incrementNonce address => o.incrementNonce host address
  | .suicide address => o.suicide address
  | .log entry => o.addLog entry
  | .refund amount => o.addRefund amount

def perform (host : Host) (o : Overlay) : Operation → Overlay
  | .enter => o.enter
  | .commit => o.commit
  | .discard => o.discard
  | .write w => o.write host w

/-- What operations make of an overlay without writes that has a root scope only. -/
def run (host : Host) (ops : List Operation) : Overlay := ops.foldl (perform host) {}

end Overlay

/-! ## The journal -/

/-- The writes that are left of operations, when the innermost `skip` scopes that these leave open
are forgotten later.  The latest operation stands first, in the result as well. -/
def surviving : (skip : Nat) → List Operation → List Write
  | _, [] => []
  | 0, .write w :: earlier => w :: surviving 0 earlier
  | skip + 1, .write _ :: earlier => surviving (skip + 1) earlier
  | skip, .enter :: earlier => surviving (skip - 1) earlier
  | 0, .commit :: earlier => surviving 0 earlier
  | skip + 1, .commit :: earlier => surviving (skip + 2) earlier
  | skip, .discard :: earlier => surviving (skip + 1) earlier

/-- The writes of all scopes that are not forgotten, in order. -/
def journal (ops : List Operation) : List Write := (surviving 0 ops.reverse).reverse

/-- Operations that close every scope they open and no other one. -/
inductive Balanced : List Operation → Prop where
  | nil : Balanced []
  | write (w : Write) : Balanced [.write w]
  | append {ops ops' : List Operation} (first : Balanced ops) (second : Balanced ops') :
      Balanced (ops ++ ops')
  | commit {inner : List Operation} (within : Balanced inner) :
      Balanced (.enter :: inner ++ [.commit])
  | discard {inner : List Operation} (within : Balanced inner) :
      Balanced (.enter :: inner ++ [.discard])

theorem surviving_balanced {inner : List Operation} (balanced : Balanced inner) (skip : Nat)
    (earlier : List Operation) :
    surviving (skip + 1) (inner.reverse ++ earlier) = surviving (skip + 1) earlier := by
  induction balanced generalizing skip earlier with
  | nil => rfl
  | write w => rfl
  | append _ _ first second =>
      rw [List.reverse_append, List.append_assoc, second, first]
  | commit _ within =>
      simp [surviving, within]
  | discard _ within =>
      simp [surviving, within]

/-- Operations that come later look at earlier ones through a count only. -/
theorem surviving_congr {earlier earlier' : List Operation}
    (same : ∀ skip, surviving skip earlier = surviving skip earlier') (later : List Operation)
    (skip : Nat) : surviving skip (later ++ earlier) = surviving skip (later ++ earlier') := by
  induction later generalizing skip with
  | nil => exact same skip
  | cons op later ih =>
      cases op <;> cases skip <;> simp only [List.cons_append, surviving, ih]

/-- A scope that is forgotten leaves nothing, whatever was done in it. -/
theorem journal_forgotten {inner : List Operation} (balanced : Balanced inner)
    (front rest : List Operation) :
    journal (front ++ (.enter :: inner ++ [.discard]) ++ rest) = journal (front ++ rest) := by
  unfold journal
  simp only [List.reverse_append, List.reverse_cons, List.append_assoc]
  refine congrArg List.reverse (surviving_congr (fun skip => ?_) _ _)
  show surviving (skip + 1) (inner.reverse ++ .enter :: front.reverse) = _
  rw [surviving_balanced balanced]
  rfl

/-- Where no scope is forgotten all writes are left. -/
theorem journal_kept {ops : List Operation} (kept : .discard ∉ ops) :
    journal ops = ops.filterMap Operation.write? := by
  have backward : ∀ later : List Operation, .discard ∉ later →
      surviving 0 later = later.filterMap Operation.write? := by
    intro later kept
    induction later with
    | nil => rfl
    | cons op later ih =>
        have rest := ih fun member => kept (List.mem_cons_of_mem _ member)
        cases op with
        | discard => exact absurd List.mem_cons_self kept
        | write w => exact congrArg (w :: ·) rest
        | enter => exact rest
        | commit => exact rest
  unfold journal
  rw [backward _ (by simpa using kept), List.filterMap_reverse, List.reverse_reverse]

namespace Overlay

variable {host : Host} {o o' : Overlay}

/-! ## Writes through the merger -/

theorem write_transfer {payer payee : Address} {value : Word} :
    (∃ cause, o.transfer host payer payee value = .error cause ∧
        o.write host (.transfer payer payee value) = o) ∨
      o.transfer host payer payee value = .ok (o.write host (.transfer payer payee value)) := by
  cases paid : o.transfer host payer payee value with
  | error cause => exact Or.inl ⟨cause, rfl, by simp only [write, paid]⟩
  | ok moved => exact Or.inr (by simp only [write, paid])

theorem outer_write (host : Host) (o : Overlay) (w : Write) :
    (o.write host w).outer = o.outer := by
  cases w with
  | transfer payer payee value =>
      rcases write_transfer with ⟨_, _, same⟩ | paid
      · rw [same]
      · exact outer_transfer paid
  | _ => rfl

theorem RefundsFit.write (fits : o.RefundsFit) (w : Write) : (o.write host w).RefundsFit := by
  cases w with
  | transfer payer payee value =>
      rcases write_transfer with ⟨_, _, same⟩ | paid
      · rw [same]
        exact fits
      · exact fits.transfer paid
  | refund amount => exact fits.of_current rfl (Quantity.addSat_lt _ _)
  | _ => exact fits.of_current rfl fits.current

/-- A transfer looks at balances only, and changes nothing else. -/
theorem flatten_transfer (same : o.flatten = o'.flatten) (payer payee : Address) (value : Word) :
    (o.write host (.transfer payer payee value)).flatten =
      (o'.write host (.transfer payer payee value)).flatten := by
  have funds : ∀ address, o.balance host address = o'.balance host address := fun address => by
    rw [balance_eq_flatten, balance_eq_flatten, same]
  simp only [write, transfer, funds]
  by_cases poor : o'.balance host payer < value
  · simp only [if_pos poor, same]
  · rw [if_neg poor, if_neg poor]
    by_cases trivial : payer = payee ∨ value = 0
    · simp only [if_pos trivial, same]
    · rw [if_neg trivial, if_neg trivial]
      by_cases excess : Word.maximum.toNat < (o'.balance host payee).toNat + value.toNat
      · simp only [if_pos excess, same]
      · simp only [if_neg excess, flatten_setBalance, same]

/-- Overlays that merge into the same effects still do so after any write. -/
theorem flatten_write (same : o.flatten = o'.flatten) (w : Write) :
    (o.write host w).flatten = (o'.write host w).flatten := by
  cases w with
  | storage contract key value => simp only [write, flatten_setStorage, same]
  | balance address value => simp only [write, flatten_setBalance, same]
  | transfer payer payee value => exact flatten_transfer same payer payee value
  | code address code => simp only [write, flatten_setCode, same]
  | incrementNonce address =>
      simp only [write, incrementNonce, flatten_setNonce, nonce_eq_flatten, same]
  | suicide address => simp only [write, flatten_suicide, same]
  | log entry => simp only [write, flatten_addLog, same]
  | refund amount => simp only [write, flatten_addRefund, same]

/-! ## Scopes of a run -/

theorem run_snoc (host : Host) (ops : List Operation) (op : Operation) :
    run host (ops ++ [op]) = (run host ops).perform host op := by
  unfold run
  rw [List.foldl_append]
  rfl

theorem run_write_snoc (host : Host) (ws : List Write) (w : Write) :
    run host ((ws ++ [w]).map .write) = (run host (ws.map .write)).write host w := by
  rw [List.map_append]
  exact run_snoc host _ _

theorem run_refundsFit (host : Host) (ops : List Operation) : (run host ops).RefundsFit := by
  induction ops using List.reverseRecOn with
  | nil =>
      intro e among
      rw [List.mem_singleton.1 among]
      exact (by decide : 0 < Quantity.bound)
  | append_singleton ops op fits =>
      rw [run_snoc]
      cases op with
      | enter => exact fits.enter
      | commit => exact fits.commit
      | discard => exact fits.discard
      | write w => exact fits.write w

theorem outer_run_writes (host : Host) (ws : List Write) :
    (run host (ws.map .write)).outer = [] := by
  induction ws using List.reverseRecOn with
  | nil => rfl
  | append_singleton ws w ih => rw [run_write_snoc, outer_write, ih]

/-! ## Scopes that are forgotten later -/

theorem depth_commit (o : Overlay) : o.commit.depth = o.depth - 1 := by
  unfold commit depth
  split
  · rename_i root
    rw [root]
    rfl
  · rename_i parent rest nested
    rw [nested]
    rfl

theorem depth_discard (o : Overlay) : o.discard.depth = o.depth - 1 := by
  unfold discard depth
  split
  · rename_i root
    rw [root]
    rfl
  · rename_i parent rest nested
    rw [nested]
    rfl

/-- As many scopes are open as were opened and not closed. -/
theorem depth_run (host : Host) {ops : List Operation} (closed : WellScoped ops) :
    (run host ops).depth + ops.countP Operation.isExit = ops.countP Operation.isEnter := by
  induction ops using List.reverseRecOn with
  | nil => rfl
  | append_singleton ops op ih =>
      have before := ih closed.front
      rw [run_snoc, List.countP_append, List.countP_append, List.countP_singleton,
        List.countP_singleton]
      cases op with
      | enter =>
          show (run host ops).depth + 1 + (_ + 0) = _ + 1
          omega
      | commit =>
          have nested := closed.opened rfl
          show (run host ops).commit.depth + (_ + 1) = _ + 0
          rw [depth_commit]
          omega
      | discard =>
          have nested := closed.opened rfl
          show (run host ops).discard.depth + (_ + 1) = _ + 0
          rw [depth_discard]
          omega
      | write w =>
          show ((run host ops).write host w).outer.length + (_ + 0) = _ + 0
          rw [outer_write]
          exact before

theorem depth_pos_of_exit (host : Host) {ops : List Operation} {op : Operation}
    (closed : WellScoped (ops ++ [op])) (exit : op.isExit = true) : 1 ≤ (run host ops).depth := by
  have whole := depth_run host closed.front
  have nested := closed.opened exit
  omega

/-- A scope that is kept and then forgotten with the next one might have been forgotten itself. -/
theorem discard_commit (nested : 2 ≤ o.depth) : o.commit.discard = o.discard.discard := by
  obtain ⟨current, outer⟩ := o
  match outer, nested with
  | _ :: _ :: _, _ => rfl

theorem discard_write (host : Host) (w : Write) (nested : 1 ≤ o.depth) :
    (o.write host w).discard = o.discard := by
  cases outer : o.outer with
  | nil =>
      unfold depth at nested
      rw [outer] at nested
      exact absurd nested (by decide)
  | cons parent rest =>
      rw [discard_of_outer outer, discard_of_outer ((outer_write host o w).trans outer)]

/-- Once the `skip` innermost scopes are forgotten, the overlay holds what the writes that survive
this make of a root scope. -/
theorem flatten_forgetting (host : Host) {ops : List Operation} (closed : WellScoped ops)
    {skip : Nat} (opened : skip ≤ (run host ops).depth) :
    (discard^[skip] (run host ops)).flatten =
      (run host ((surviving skip ops.reverse).reverse.map .write)).flatten := by
  induction ops using List.reverseRecOn generalizing skip with
  | nil =>
      cases Nat.le_zero.1 opened
      rfl
  | append_singleton ops op ih =>
      rw [run_snoc] at opened ⊢
      rw [List.reverse_append]
      show _ = (run host ((surviving skip (op :: ops.reverse)).reverse.map .write)).flatten
      cases op with
      | enter =>
          cases skip with
          | zero =>
              exact (flatten_enter (run_refundsFit host ops)).trans (ih closed.front (Nat.zero_le _))
          | succ skip => exact ih closed.front (Nat.le_of_succ_le_succ opened)
      | commit =>
          have nested := depth_pos_of_exit host closed rfl
          have depth : (run host ops).commit.depth = _ := depth_commit _
          cases skip with
          | zero => exact (flatten_commit _).trans (ih closed.front (Nat.zero_le _))
          | succ skip =>
              have deep : skip + 2 ≤ (run host ops).depth := by
                have : skip + 1 ≤ (run host ops).commit.depth := opened
                omega
              show (discard^[skip] (run host ops).commit.discard).flatten = _
              rw [discard_commit (Nat.le_trans (Nat.le_add_left 2 skip) deep)]
              exact ih closed.front deep
      | discard =>
          have nested := depth_pos_of_exit host closed rfl
          have deep : skip + 1 ≤ (run host ops).depth := by
            have depth : (run host ops).discard.depth = _ := depth_discard _
            have : skip ≤ (run host ops).discard.depth := opened
            omega
          rw [surviving]
          exact ih closed.front deep
      | write w =>
          have deep : skip ≤ (run host ops).depth := by
            have : skip ≤ ((run host ops).write host w).outer.length := opened
            rwa [outer_write] at this
          cases skip with
          | zero =>
              rw [surviving, List.reverse_cons, run_write_snoc]
              exact flatten_write (ih closed.front (Nat.zero_le _)) w
          | succ skip =>
              show (discard^[skip] ((run host ops).write host w).discard).flatten = _
              rw [discard_write host w (Nat.le_trans (Nat.le_add_left 1 skip) deep)]
              exact ih closed.front deep

/-! ## The scoped overlay and the flat one -/

/-- Two overlays over a host that answer all questions alike and leave the same effects. -/
structure Indistinguishable (host : Host) (o o' : Overlay) : Prop where
  storage : ∀ contract key, o.storage host contract key = o'.storage host contract key
  balance : ∀ address, o.balance host address = o'.balance host address
  code : ∀ address, o.code host address = o'.code host address
  nonce : ∀ address, o.nonce host address = o'.nonce host address
  hasSuicided : ∀ address, o.hasSuicided address = o'.hasSuicided address
  effects : o.flatten = o'.flatten

theorem indistinguishable_of_flatten (same : o.flatten = o'.flatten) :
    Indistinguishable host o o' where
  storage contract key := by rw [storage_eq_flatten, storage_eq_flatten, same]
  balance address := by rw [balance_eq_flatten, balance_eq_flatten, same]
  code address := by rw [code_eq_flatten, code_eq_flatten, same]
  nonce address := by rw [nonce_eq_flatten, nonce_eq_flatten, same]
  hasSuicided address := by rw [hasSuicided_eq_flatten, hasSuicided_eq_flatten, same]
  effects := same

/-- Scopes may be done without.  The writes of the journal, made in a root scope alone, leave an
overlay that cannot be told from the one that all operations leave. -/
theorem run_eq_journal (host : Host) {ops : List Operation} (closed : WellScoped ops) :
    Indistinguishable host (run host ops) (run host ((journal ops).map .write)) ∧
      (run host ((journal ops).map .write)).outer = [] :=
  ⟨indistinguishable_of_flatten (flatten_forgetting host closed (Nat.zero_le _)),
    outer_run_writes host _⟩

/-- A host without code, where every account has the same funds. -/
def endowed (funds : Word) : Host where
  code := fun _ => []
  balance := fun _ => funds
  storageAt := fun _ => []
  nonce := fun _ => 0

/-- Payments in three scopes, the second of which is forgotten inside the first, and the last of
which stays open. -/
def payments : List Operation :=
  [.write (.transfer ⟨0⟩ ⟨1⟩ 30), .enter, .write (.transfer ⟨1⟩ ⟨2⟩ 50), .enter,
    .write (.incrementNonce ⟨1⟩), .write (.transfer ⟨2⟩ ⟨1⟩ 150), .discard, .write (.refund 5),
    .commit, .enter, .write (.transfer ⟨2⟩ ⟨0⟩ 120)]

/-- The payment in the scope that is forgotten would have left too little for the last one. -/
theorem run_eq_journal_payments :
    WellScoped payments ∧
      journal payments = [.transfer ⟨0⟩ ⟨1⟩ 30, .transfer ⟨1⟩ ⟨2⟩ 50, .refund 5,
        .transfer ⟨2⟩ ⟨0⟩ 120] ∧
      (run (endowed 100) payments).balance (endowed 100) ⟨0⟩ = 190 := by
  have closed : WellScoped payments := by decide
  refine ⟨closed, by decide, ?_⟩
  rw [(run_eq_journal (endowed 100) closed).1.balance]
  decide +kernel

end Overlay

end EvmLedger.Vm
