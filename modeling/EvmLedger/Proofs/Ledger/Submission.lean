/-
# EvmLedger.Proofs.Ledger.Submission -- what work on a ledger does

Work that only looks at a ledger may fail, work that writes does not fail: in this
order it is all or nothing (`ReadOnly.bind`).  Linking an account and handling a
transaction are put together in this way, so a failure finds the ledger as it was
before (`Work.Atomic`).

What is left to know is what a success comes to.  `process_handled` takes a transaction
that was accepted apart once and for all; from it follow which account it was attributed
to, and why (`process_eq_ok`), and what was run for it and written (`process_ran`).
-/
import EvmLedger.Ledger.Submission
import EvmLedger.Proofs.Failure

namespace EvmLedger.Submission

set_option autoImplicit false

namespace Work

variable {α β : Type}

/-! ## All or nothing -/

/-- Nothing is written, whether the work fails or not. -/
def ReadOnly (work : Work α) : Prop :=
  ∀ l, (∃ a, work l = .ok a l) ∨ ∃ cause, work l = .error cause l

/-- The work does not fail. -/
def Succeeds (work : Work α) : Prop :=
  ∀ l, ∃ a l', work l = .ok a l'

/-- When the work fails, nothing has been written. -/
def Atomic (work : Work α) : Prop :=
  ∀ l cause l', work l = .error cause l' → l' = l

theorem readOnly_get : ReadOnly get := fun l => Or.inl ⟨l, rfl⟩

theorem readOnly_check (result : Except Error α) : ReadOnly (check result) := by
  intro l
  cases result with
  | ok a => exact Or.inl ⟨a, rfl⟩
  | error cause => exact Or.inr ⟨cause, rfl⟩

theorem succeeds_pure (a : α) : Succeeds (pure a) := fun l => ⟨a, l, rfl⟩

theorem succeeds_modify (f : Ledger → Ledger) : Succeeds (modify f) := fun l => ⟨(), f l, rfl⟩

theorem atomic_throw (cause : Error) : Atomic (throw cause : Work α) := by
  rintro l _ _ ⟨⟩
  rfl

theorem Succeeds.atomic {work : Work α} (succeeds : Succeeds work) : Atomic work := by
  intro l cause l' failed
  obtain ⟨a, after, done⟩ := succeeds l
  cases done.symm.trans failed

theorem Succeeds.bind {work : Work β} {rest : β → Work α} (succeeds : Succeeds work)
    (after : ∀ b, Succeeds (rest b)) : Succeeds (work >>= rest) := by
  intro l
  obtain ⟨b, l', done⟩ := succeeds l
  obtain ⟨a, l'', finished⟩ := after b l'
  refine ⟨a, l'', ?_⟩
  simp only [Bind.bind, EStateM.bind, done]
  exact finished

/-- Looking comes before writing. -/
theorem ReadOnly.bind {work : Work β} {rest : β → Work α} (looks : ReadOnly work)
    (after : ∀ b, Atomic (rest b)) : Atomic (work >>= rest) := by
  intro l cause l' failed
  simp only [Bind.bind, EStateM.bind] at failed
  rcases looks l with ⟨b, done⟩ | ⟨cause', stopped⟩
  · rw [done] at failed
    exact after b l cause l' failed
  · rw [stopped] at failed
    cases failed
    rfl

theorem Atomic.map {work : Work β} (atomic : Atomic work) (f : β → α) : Atomic (f <$> work) := by
  intro l cause l' failed
  simp only [Functor.map, EStateM.map] at failed
  cases done : work l with
  | ok b after =>
      rw [done] at failed
      cases failed
  | error cause' after =>
      rw [done] at failed
      cases failed
      exact atomic l _ _ done

/-! ## Successes -/

theorem get_bind (rest : Ledger → Work α) (l : Ledger) : (get >>= rest) l = rest l l := rfl

theorem modify_bind (f : Ledger → Ledger) (rest : Unit → Work α) (l : Ledger) :
    (modify f >>= rest) l = rest () (f l) := rfl

theorem check_bind_eq_ok {result : Except Error β} {rest : β → Work α} {l l' : Ledger} {a : α}
    (done : (check result >>= rest) l = .ok a l') :
    ∃ b, result = .ok b ∧ rest b l = .ok a l' := by
  cases result with
  | ok b => exact ⟨b, rfl, done⟩
  | error cause => cases done

theorem map_eq_ok {work : Work β} {f : β → α} {l l' : Ledger} {a : α}
    (done : (f <$> work) l = .ok a l') : ∃ b, a = f b ∧ work l = .ok b l' := by
  simp only [Functor.map, EStateM.map] at done
  cases worked : work l with
  | ok b after =>
      rw [worked] at done
      cases done
      exact ⟨b, rfl, rfl⟩
  | error cause after =>
      rw [worked] at done
      cases done

theorem on_eq_ok {work : Work α} {l l' : Ledger} {a : α} (done : work.on l = .ok (a, l')) :
    work l = .ok a l' := by
  unfold Work.on at done
  split at done
  · rename_i worked
    cases done
    exact worked
  · cases done

end Work

open Work

/-! ## Linking an account -/

theorem link_atomic (name : String) (address : Address) : Atomic (link name address) := by
  refine readOnly_get.bind fun l => ?_
  split
  · exact atomic_throw _
  · exact ((succeeds_modify _).bind fun _ => succeeds_pure _).atomic

theorem link_eq_ok {name : String} {address identifier : Address} {l l' : Ledger}
    (done : link name address l = .ok identifier l') :
    identifier = ContractAddress.identifier name address ∧ l.accountByName? name = none ∧
      l' = l.insertAccount ⟨name, identifier, 0, 0⟩ := by
  unfold link at done
  rw [get_bind] at done
  cases free : l.accountByName? name with
  | some account =>
      rw [free] at done
      cases done
  | none =>
      rw [free] at done
      cases done
      exact ⟨rfl, rfl, rfl⟩

/-- A name that is free can be linked. -/
theorem link_of_free {name : String} {l : Ledger} (free : l.accountByName? name = none)
    (address : Address) :
    link name address l = .ok (ContractAddress.identifier name address)
      (l.insertAccount ⟨name, ContractAddress.identifier name address, 0, 0⟩) := by
  unfold link
  rw [get_bind, free]
  rfl

/-! ## Handling a transaction -/

theorem process_atomic (settings : Settings) (resolve : Resolver) (request : Request)
    (code : Option Bytes) : Atomic (process settings resolve request code) := by
  unfold process
  refine (readOnly_check _).bind fun tx => (readOnly_check _).bind fun nonce =>
    readOnly_get.bind fun l => (readOnly_check _).bind fun account =>
    (readOnly_check _).bind fun granted => readOnly_get.bind fun l' => readOnly_get.bind fun l'' =>
    (readOnly_check _).bind fun outcome => (readOnly_check _).bind fun output =>
    (readOnly_check _).bind fun spent => ?_
  exact ((succeeds_modify _).bind fun _ => (succeeds_modify _).bind fun _ =>
    succeeds_pure _).atomic

theorem processCode_atomic (settings : Settings) (resolve : Resolver) (code : Bytes)
    (request : Request) : Atomic (processCode settings resolve code request) := by
  unfold processCode
  split
  · exact process_atomic settings resolve request (some code)
  · exact atomic_throw _

theorem linkedAccount_eq_ok {l : Ledger} {identifier : Option Address} {missing : Error}
    {account : LinkedAccount} (found : linkedAccount l identifier missing = .ok account) :
    ∃ address, identifier = some address ∧ l.account? address = some account := by
  unfold linkedAccount at found
  split at found
  · rename_i linked
    rw [Except.ok.inj found] at linked
    exact Option.bind_eq_some_iff.1 linked
  · cases found

theorem checkChain_eq_ok {settings : Settings} {tx : Transaction} {passed : Unit}
    (checked : checkChain settings tx = .ok passed) {chain : Nat}
    (named : tx.signature.chainId = some chain) : chain = settings.chainId := by
  unfold checkChain at checked
  simp only [named] at checked
  split at checked
  · assumption
  · cases checked

/-- The account that a transaction is attributed to.  A signed one acts for its signer, on the
chain that the signature names; an unsigned one acts for the sender it claims. -/
theorem actingAccount_eq_ok {settings : Settings} {resolve : Resolver} {l : Ledger}
    {tx : Transaction} {claimed : Option Address} {account : LinkedAccount}
    (found : actingAccount settings resolve l tx claimed = .ok account) :
    if tx.isSigned then
      (∀ chain, tx.signature.chainId = some chain → chain = settings.chainId) ∧
        ∃ signer, resolve tx = .ok signer ∧ l.account? signer = some account
    else ∃ sender, claimed = some sender ∧ l.account? sender = some account := by
  unfold actingAccount at found
  split
  · rename_i signed
    rw [if_pos signed] at found
    obtain ⟨_, checked, found⟩ := bind_eq_ok found
    obtain ⟨signer, answer, found⟩ := bind_eq_ok found
    obtain ⟨_, ⟨rfl⟩, linked⟩ := linkedAccount_eq_ok found
    exact ⟨fun chain named => checkChain_eq_ok checked named, signer, answer, linked⟩
  · rename_i unsigned
    rw [if_neg unsigned] at found
    exact linkedAccount_eq_ok found

theorem authenticate_eq_ok {settings : Settings} {resolve : Resolver} {l : Ledger}
    {tx : Transaction} {nonce : Nat} {request : Request} {account : LinkedAccount}
    (passed : authenticate settings resolve l tx nonce request = .ok account) :
    actingAccount settings resolve l tx request.claimed = .ok account ∧
      nonce = account.nonce + 1 ∧ (¬tx.isSigned → request.caller = some account.name) := by
  obtain ⟨account', acting, passed⟩ := bind_eq_ok passed
  by_cases skipped : Quantity.add? account'.nonce 1 ≠ some nonce
  · simp only [if_pos skipped] at passed
    cases passed
  · simp only [if_neg skipped] at passed
    by_cases forbidden : (!tx.isSigned) = true ∧ request.caller ≠ some account'.name
    · simp only [if_pos forbidden] at passed
      cases passed
    · simp only [if_neg forbidden] at passed
      cases passed
      have follows := Decidable.not_not.1 skipped
      unfold Quantity.add? at follows
      split at follows
      · refine ⟨acting, (Option.some.inj follows).symm, fun unsigned => ?_⟩
        exact Decidable.byContradiction fun other =>
          forbidden ⟨by simpa using unsigned, other⟩
      · cases follows

theorem toNat_of_nonce64 {tx : Transaction} {nonce : Nat} (narrowed : tx.nonce64 = .ok nonce) :
    tx.nonce.toNat = nonce := by
  unfold Transaction.nonce64 at narrowed
  split at narrowed
  · rename_i fits
    cases narrowed
    exact (Word.narrow?_eq_some.1 fits).1
  · cases narrowed

theorem toNat_of_gasLimit64 {tx : Transaction} {limit : Nat}
    (narrowed : tx.gasLimit64 = .ok limit) : tx.gasLimit.toNat = limit := by
  unfold Transaction.gasLimit64 at narrowed
  split at narrowed
  · rename_i fits
    cases narrowed
    exact (Word.narrow?_eq_some.1 fits).1
  · cases narrowed

/-- The gas limit is within that of the block, and covers the transaction itself and the frame. -/
theorem gasFor_eq_ok {settings : Settings} {tx : Transaction} {limit gas : Nat}
    (granted : gasFor settings tx = .ok (limit, gas)) :
    tx.gasLimit.toNat = limit ∧ limit ≤ settings.blockGasLimit ∧
      settings.schedule.intrinsicGas tx.data tx.isCreate + gas = limit := by
  unfold gasFor at granted
  obtain ⟨limit', narrowed, granted⟩ := bind_eq_ok granted
  by_cases excessive : settings.blockGasLimit < limit'
  · simp only [if_pos excessive] at granted
    cases granted
  · by_cases insufficient : limit' < settings.schedule.intrinsicGas tx.data tx.isCreate
    · simp only [if_neg excessive, if_pos insufficient] at granted
      cases granted
    · simp only [if_neg excessive, if_neg insufficient] at granted
      cases granted
      have covered := Nat.le_of_not_lt insufficient
      exact ⟨toNat_of_gasLimit64 (mapError_eq_ok narrowed), Nat.le_of_not_lt excessive,
        Nat.add_sub_of_le covered⟩

theorem spentOf_eq_ok {limit left spent : Nat} (counted : spentOf limit left = .ok spent) :
    spent = limit - left := by
  unfold spentOf Quantity.sub? at counted
  by_cases covered : left ≤ limit
  · rw [if_pos covered] at counted
    cases counted
    rfl
  · rw [if_neg covered] at counted
    cases counted

/-- A transaction that was accepted, and all that was done for it. -/
structure Handled (settings : Settings) (resolve : Resolver) (request : Request)
    (code : Option Bytes) (before : Ledger) (receipt : Receipt) (after : Ledger)
    (tx : Transaction) (account : LinkedAccount) (limit gas : Nat) (outcome : Vm.Outcome) :
    Prop where
  parsed : Transaction.parse request.raw = .ok tx
  attributed : authenticate settings resolve before tx tx.nonce.toNat request = .ok account
  granted : gasFor settings tx = .ok (limit, gas)
  ran : Vm.execute (contextFor settings before)
    (frameFor before tx account.identifier gas code).1 = .ok outcome
  returned : outputOf tx.hash outcome.result = .ok receipt.output
  sender : receipt.sender = account.identifier
  refunded : receipt.gasRefunded =
    min outcome.effects.refund ((limit - outcome.result.gasLeft) / 2)
  used : receipt.gasUsed = limit - outcome.result.gasLeft - receipt.gasRefunded
  written : after =
    (before.apply outcome.effects).setAccountNonce account.identifier tx.nonce.toNat

theorem process_handled {settings : Settings} {resolve : Resolver} {request : Request}
    {code : Option Bytes} {l l' : Ledger} {receipt : Receipt}
    (done : process settings resolve request code l = .ok receipt l') :
    ∃ tx account limit gas outcome,
      Handled settings resolve request code l receipt l' tx account limit gas outcome := by
  unfold process at done
  obtain ⟨tx, parsed, done⟩ := check_bind_eq_ok done
  obtain ⟨nonce, narrowed, done⟩ := check_bind_eq_ok done
  rw [get_bind] at done
  obtain ⟨account, attributed, done⟩ := check_bind_eq_ok done
  obtain ⟨⟨limit, gas⟩, granted, done⟩ := check_bind_eq_ok done
  simp only [get_bind] at done
  obtain ⟨outcome, ran, done⟩ := check_bind_eq_ok done
  obtain ⟨output, returned, done⟩ := check_bind_eq_ok done
  obtain ⟨spent, counted, done⟩ := check_bind_eq_ok done
  obtain rfl := spentOf_eq_ok counted
  rw [modify_bind, modify_bind] at done
  cases done
  obtain rfl := toNat_of_nonce64 (mapError_eq_ok narrowed)
  exact ⟨tx, account, limit, gas, outcome,
    { parsed := mapError_eq_ok parsed
      attributed := attributed
      granted := granted
      ran := mapError_eq_ok ran
      returned := returned
      sender := rfl
      refunded := rfl
      used := rfl
      written := rfl }⟩

/-- What is known of a transaction that was accepted. -/
structure Accepted (settings : Settings) (resolve : Resolver) (request : Request) (before : Ledger)
    (receipt : Receipt) (after : Ledger) (tx : Transaction) (account : LinkedAccount) : Prop where
  parsed : Transaction.parse request.raw = .ok tx
  acting : actingAccount settings resolve before tx request.claimed = .ok account
  next : tx.nonce.toNat = account.nonce + 1
  permitted : ¬tx.isSigned → request.caller = some account.name
  sender : receipt.sender = account.identifier
  /-- it was run as that account, and what came of that was written -/
  ran : ∃ gas code outcome,
    Vm.execute (contextFor settings before) (frameFor before tx receipt.sender gas code).1 =
      .ok outcome ∧
    after = (before.apply outcome.effects).setAccountNonce receipt.sender tx.nonce.toNat

theorem frameFor_sender (l : Ledger) (tx : Transaction) (sender : Address) (gas : Nat)
    (code : Option Bytes) :
    (frameFor l tx sender gas code).1.sender = sender ∧
      (frameFor l tx sender gas code).1.origin = sender := by
  unfold frameFor
  cases tx.action with
  | create => exact ⟨rfl, rfl⟩
  | call recipient => exact ⟨rfl, rfl⟩

theorem frameFor_gas (l : Ledger) (tx : Transaction) (sender : Address) (gas : Nat)
    (code : Option Bytes) : (frameFor l tx sender gas code).1.gas = gas := by
  unfold frameFor
  cases tx.action with
  | create => rfl
  | call recipient => rfl

theorem process_eq_ok {settings : Settings} {resolve : Resolver} {request : Request}
    {code : Option Bytes} {l l' : Ledger} {receipt : Receipt}
    (done : process settings resolve request code l = .ok receipt l') :
    ∃ tx account, Accepted settings resolve request l receipt l' tx account := by
  obtain ⟨tx, account, limit, gas, outcome, handled⟩ := process_handled done
  obtain ⟨acting, follows, permitted⟩ := authenticate_eq_ok handled.attributed
  have ran := handled.ran
  have written := handled.written
  rw [← handled.sender] at ran written
  exact ⟨tx, account,
    { parsed := handled.parsed
      acting := acting
      next := follows
      permitted := permitted
      sender := handled.sender
      ran := ⟨gas, code, outcome, ran, written⟩ }⟩

/-- Where raw code is allowed, it is run in place of the recipient's. -/
theorem process_of_processCode {settings : Settings} {resolve : Resolver} {code : Bytes}
    {request : Request} {l l' : Ledger} {receipt : Receipt}
    (done : processCode settings resolve code request l = .ok receipt l') :
    process settings resolve request (some code) l = .ok receipt l' := by
  unfold processCode at done
  split at done
  · exact done
  · cases done

/-! ## The frame of a transaction -/

/-- The outermost frame that is run for a request, as the account with an identifier. -/
def frame? (settings : Settings) (request : Request) (code : Option Bytes) (l : Ledger)
    (sender : Address) : Option Vm.Params :=
  match Transaction.parse request.raw with
  | .error _ => none
  | .ok tx =>
      match gasFor settings tx with
      | .error _ => none
      | .ok (_, gas) => some (frameFor l tx sender gas code).1

theorem Handled.frame? {settings : Settings} {resolve : Resolver} {request : Request}
    {code : Option Bytes} {l l' : Ledger} {receipt : Receipt} {tx : Transaction}
    {account : LinkedAccount} {limit gas : Nat} {outcome : Vm.Outcome}
    (handled : Handled settings resolve request code l receipt l' tx account limit gas outcome) :
    frame? settings request code l receipt.sender =
      some (frameFor l tx account.identifier gas code).1 := by
  unfold Submission.frame?
  rw [handled.parsed]
  simp only [handled.granted, handled.sender]

/-- That frame was run, and a transaction that is accepted has written its effects. -/
theorem process_ran {settings : Settings} {resolve : Resolver} {request : Request}
    {code : Option Bytes} {l l' : Ledger} {receipt : Receipt}
    (done : process settings resolve request code l = .ok receipt l') :
    ∃ params outcome nonce, frame? settings request code l receipt.sender = some params ∧
      Vm.execute (contextFor settings l) params = .ok outcome ∧
      l' = (l.apply outcome.effects).setAccountNonce receipt.sender nonce := by
  obtain ⟨tx, account, limit, gas, outcome, handled⟩ := process_handled done
  have written := handled.written
  rw [← handled.sender] at written
  exact ⟨_, outcome, _, handled.frame?, handled.ran, written⟩

end EvmLedger.Submission
