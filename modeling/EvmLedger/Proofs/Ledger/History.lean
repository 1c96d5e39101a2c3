/-
# EvmLedger.Proofs.Ledger.History -- sequences of calls on one ledger

A ledger starts empty.  After that accounts are linked and transactions are handed
in, in any order and with any arguments, and each call finds the ledger as the one
before it has left it, also when that one has failed (`serve`, `history`).

`serve_cases` says what one call can do.  From this follows, call by call, what
every history keeps (`Regular`): the tables of accounts are in order (`Rooted`), the
nonces of the transactions that ran as an account are 1, 2, 3 and so on, up to the one
that is stored, and each of these transactions had the right to run as it did.
`replay_free` draws the conclusions.

Accounts must not be given the identifiers of other accounts.  As identifiers are
digests this cannot be shown, so it is assumed of the accounts that are linked in the
history, and of no others.
-/
import EvmLedger.Proofs.Ledger.Accounts
import EvmLedger.Proofs.Ledger.Submission
import Mathlib.Data.List.Induction
import Mathlib.Data.List.Nodup

namespace EvmLedger.Submission

set_option autoImplicit false

/-! ## Histories -/

/-- What can be asked of a ledger.  A transaction comes with the way in which signers are found
at the time. -/
inductive Call where
  | createAccount (name : String) (address : Address)
  | submit (resolve : Resolver) (request : Request)
  | executeCode (resolve : Resolver) (code : Bytes) (request : Request)

/-- What a call answers when it succeeds. -/
inductive Answer where
  | linked (identifier : Address)
  | accepted (receipt : Receipt)
  deriving DecidableEq

namespace Call

/-- The work that a call asks for. -/
def work (settings : Settings) : Call → Work Answer
  | .createAccount name address => .linked <$> link name address
  | .submit resolve request => .accepted <$> process settings resolve request none
  | .executeCode resolve code request => .accepted <$> processCode settings resolve code request

/-- The transaction that is handed in, and the way in which its signer is found. -/
def request? : Call → Option (Resolver × Request)
  | .createAccount .. => none
  | .submit resolve request => some (resolve, request)
  | .executeCode resolve _ request => some (resolve, request)

end Call

/-- A call that was served, with the ledger before and after it. -/
structure Served where
  call : Call
  before : Ledger
  outcome : Except Error Answer
  after : Ledger

/-- Serves a call.  The ledger is left as the work leaves it, whether it fails or not. -/
def serve (settings : Settings) (l : Ledger) (call : Call) : Served :=
  match (call.work settings).run l with
  | .ok answer after => ⟨call, l, .ok answer, after⟩
  | .error cause after => ⟨call, l, .error cause, after⟩

/-- Calls served one after the other. -/
def history (settings : Settings) : Ledger → List Call → List Served
  | _, [] => []
  | l, call :: calls =>
      let served := serve settings l call
      served :: history settings served.after calls

/-- The ledger after the calls have been served. -/
def ledgerAfter (settings : Settings) (l : Ledger) (calls : List Call) : Ledger :=
  calls.foldl (fun l call => (serve settings l call).after) l

/-- The transaction that was accepted, if it ran as the account with an identifier. -/
def Served.ranAs? (served : Served) (identifier : Address) : Option Transaction :=
  match served.outcome, served.call.request? with
  | .ok (.accepted receipt), some (_, request) =>
      if receipt.sender = identifier then (Transaction.parse request.raw).toOption else none
  | _, _ => none

/-- The transactions that ran as the account with an identifier, in the order of their
acceptance. -/
def transactionsOf (identifier : Address) (past : List Served) : List Transaction :=
  past.filterMap (·.ranAs? identifier)

theorem history_snoc (settings : Settings) (l : Ledger) (calls : List Call) (call : Call) :
    history settings l (calls ++ [call]) =
      history settings l calls ++ [serve settings (ledgerAfter settings l calls) call] := by
  induction calls generalizing l with
  | nil => rfl
  | cons first calls ih => exact congrArg (serve settings l first :: ·) (ih _)

theorem ledgerAfter_snoc (settings : Settings) (l : Ledger) (calls : List Call) (call : Call) :
    ledgerAfter settings l (calls ++ [call]) =
      (serve settings (ledgerAfter settings l calls) call).after :=
  List.foldl_append

/-! ## One call -/

theorem Call.work_atomic (settings : Settings) (call : Call) : (call.work settings).Atomic := by
  cases call with
  | createAccount name address => exact (link_atomic name address).map _
  | submit resolve request => exact (process_atomic settings resolve request none).map _
  | executeCode resolve code request =>
      exact (processCode_atomic settings resolve code request).map _

/-- What a call that succeeds comes to. -/
theorem Call.work_eq_ok {settings : Settings} {call : Call} {l l' : Ledger} {answer : Answer}
    (done : call.work settings l = .ok answer l') :
    (∃ name address, call = .createAccount name address ∧
      answer = .linked (ContractAddress.identifier name address) ∧
      l.accountByName? name = none ∧
      l' = l.insertAccount ⟨name, ContractAddress.identifier name address, 0, 0⟩) ∨
    ∃ resolve request receipt tx account, call.request? = some (resolve, request) ∧
      answer = .accepted receipt ∧ Accepted settings resolve request l receipt l' tx account := by
  cases call with
  | createAccount name address =>
      obtain ⟨identifier, rfl, linked⟩ := Work.map_eq_ok done
      obtain ⟨rfl, free, written⟩ := link_eq_ok linked
      exact Or.inl ⟨name, address, rfl, rfl, free, written⟩
  | submit resolve request =>
      obtain ⟨receipt, rfl, handled⟩ := Work.map_eq_ok done
      obtain ⟨tx, account, accepted⟩ := process_eq_ok handled
      exact Or.inr ⟨resolve, request, receipt, tx, account, rfl, rfl, accepted⟩
  | executeCode resolve code request =>
      obtain ⟨receipt, rfl, handled⟩ := Work.map_eq_ok done
      obtain ⟨tx, account, accepted⟩ := process_eq_ok (process_of_processCode handled)
      exact Or.inr ⟨resolve, request, receipt, tx, account, rfl, rfl, accepted⟩

/-- A call fails and writes nothing, or links an account, or runs a transaction. -/
theorem serve_cases (settings : Settings) (l : Ledger) (call : Call) :
    (∃ cause, serve settings l call = ⟨call, l, .error cause, l⟩) ∨
    (∃ name address, call = .createAccount name address ∧ l.accountByName? name = none ∧
      serve settings l call = ⟨call, l, .ok (.linked (ContractAddress.identifier name address)),
        l.insertAccount ⟨name, ContractAddress.identifier name address, 0, 0⟩⟩) ∨
    ∃ resolve request receipt tx account after, call.request? = some (resolve, request) ∧
      Accepted settings resolve request l receipt after tx account ∧
      serve settings l call = ⟨call, l, .ok (.accepted receipt), after⟩ := by
  unfold serve
  cases done : (call.work settings).run l with
  | error cause after =>
      obtain rfl := call.work_atomic settings l cause after done
      exact Or.inl ⟨cause, rfl⟩
  | ok answer after =>
      rcases Call.work_eq_ok done with ⟨name, address, rfl, rfl, free, rfl⟩ |
        ⟨resolve, request, receipt, tx, account, asked, rfl, accepted⟩
      · exact Or.inr (Or.inl ⟨name, address, rfl, free, rfl⟩)
      · exact Or.inr (Or.inr ⟨resolve, request, receipt, tx, account, after, asked, accepted, rfl⟩)

/-! ## What every history keeps -/

/-- Different accounts that are linked have different identifiers. -/
def Distinct (calls : List Call) : Prop :=
  ∀ name address name' address', .createAccount name address ∈ calls →
    .createAccount name' address' ∈ calls →
    ContractAddress.identifier name address = ContractAddress.identifier name' address' →
    name = name'

theorem Distinct.of_append {calls later : List Call} (distinct : Distinct (calls ++ later)) :
    Distinct calls := fun name address name' address' among among' =>
  distinct name address name' address' (List.mem_append_left _ among)
    (List.mem_append_left _ among')

/-- The tables of accounts are in order, and the accounts in them have been linked by calls. -/
structure Rooted (calls : List Call) (l : Ledger) : Prop where
  linked : l.WellLinked
  origin : ∀ name account, l.accounts[name]? = some account →
    ∃ address, .createAccount name address ∈ calls ∧
      account.identifier = ContractAddress.identifier name address

namespace Rooted

variable {calls : List Call} {l l' : Ledger} {name : String} {address : Address}

theorem empty : Rooted [] {} where
  linked := .empty
  origin name account found := by simp at found

/-- Calls that link no account. -/
theorem append (rooted : Rooted calls l) (later : List Call) : Rooted (calls ++ later) l where
  linked := rooted.linked
  origin name account found := by
    obtain ⟨address, among, given⟩ := rooted.origin name account found
    exact ⟨address, List.mem_append_left _ among, given⟩

theorem of_sameAccounts (rooted : Rooted calls l)
    (same : l.SameAccounts LinkedAccount.ends l') : Rooted calls l' where
  linked := rooted.linked.of_sameAccounts same
  origin name account found := by
    obtain ⟨earlier, found_earlier, ends⟩ := same.symm.exists_account found
    obtain ⟨address, among, given⟩ := rooted.origin name earlier found_earlier
    exact ⟨address, among, (Prod.mk.inj ends).2.symm.trans given⟩

/-- An identifier that no linked account has been given is in no table. -/
theorem free_identifier (rooted : Rooted calls l)
    (distinct : Distinct (calls ++ [.createAccount name address]))
    (free : l.accountByName? name = none) :
    l.identifiers[ContractAddress.identifier name address]? = none := by
  cases taken : l.identifiers[ContractAddress.identifier name address]? with
  | none => rfl
  | some other =>
      obtain ⟨account, found, same⟩ := rooted.linked.identified taken
      obtain ⟨otherAddress, among, given⟩ := rooted.origin other account found
      have same_name : name = other :=
        distinct name address other otherAddress (List.mem_append_right _ List.mem_cons_self)
          (List.mem_append_left _ among) (same.symm.trans given)
      rw [← same_name] at found
      cases free.symm.trans found

theorem created (rooted : Rooted calls l)
    (distinct : Distinct (calls ++ [.createAccount name address]))
    (free : l.accountByName? name = none) :
    Rooted (calls ++ [.createAccount name address])
      (l.insertAccount ⟨name, ContractAddress.identifier name address, 0, 0⟩) where
  linked := rooted.linked.insertAccount free (rooted.free_identifier distinct free)
  origin other account found := by
    simp only [Ledger.insertAccount, Std.ExtTreeMap.getElem?_insert, Std.compare_eq_iff_eq]
      at found
    split at found
    · rename_i same
      cases found
      subst same
      exact ⟨address, List.mem_append_right _ List.mem_cons_self, rfl⟩
    · exact (rooted.append _).origin other account found

end Rooted

/-- An accepted transaction ran as the account of its signer, on the right chain, or else as the
sender that was claimed, for the caller who owns that account. -/
def Served.Authorised (settings : Settings) (served : Served) : Prop :=
  ∀ receipt, served.outcome = .ok (.accepted receipt) →
    ∃ resolve request tx account, served.call.request? = some (resolve, request) ∧
      Transaction.parse request.raw = .ok tx ∧
      served.before.account? receipt.sender = some account ∧
      (∃ params gas code outcome,
        params = (frameFor served.before tx receipt.sender gas code).1 ∧
        params.sender = receipt.sender ∧ params.origin = receipt.sender ∧
        Vm.execute (contextFor settings served.before) params = .ok outcome ∧
        served.after =
          (served.before.apply outcome.effects).setAccountNonce receipt.sender tx.nonce.toNat) ∧
      if tx.signature.r ≠ [] ∧ tx.signature.s ≠ [] then
        resolve tx = .ok receipt.sender ∧
          ∀ chain, tx.signature.chainId = some chain → chain = settings.chainId
      else request.claimed = some receipt.sender ∧ request.caller = some account.name

/-- What is known of a ledger and of the calls that have led to it. -/
structure Regular (settings : Settings) (calls : List Call) (past : List Served) (l : Ledger) :
    Prop extends Rooted calls l where
  counted : ∀ identifier, (transactionsOf identifier past).map (·.nonce.toNat) =
    List.range' 1 (l.lastNonce identifier)
  unharmed : ∀ served ∈ past, ∀ cause, served.outcome = .error cause → served.after = served.before
  authorised : ∀ served ∈ past, served.Authorised settings

theorem transactionsOf_snoc (identifier : Address) (past : List Served) (served : Served) :
    transactionsOf identifier (past ++ [served]) =
      transactionsOf identifier past ++ (served.ranAs? identifier).toList := by
  simp only [transactionsOf, List.filterMap_append, List.filterMap_cons, List.filterMap_nil]
  cases served.ranAs? identifier with
  | none => rfl
  | some tx => rfl

/-- What is known of accepted transactions, where the tables of accounts are in order. -/
theorem Accepted.before {settings : Settings} {resolve : Resolver} {request : Request}
    {l after : Ledger} {receipt : Receipt} {tx : Transaction} {account : LinkedAccount}
    (accepted : Accepted settings resolve request l receipt after tx account)
    (linked : l.WellLinked) :
    l.account? receipt.sender = some account ∧
      if tx.signature.r ≠ [] ∧ tx.signature.s ≠ [] then
        resolve tx = .ok receipt.sender ∧
          ∀ chain, tx.signature.chainId = some chain → chain = settings.chainId
      else request.claimed = some receipt.sender ∧ request.caller = some account.name := by
  have signed_iff : tx.isSigned = true ↔ tx.signature.r ≠ [] ∧ tx.signature.s ≠ [] := by
    simp [Transaction.isSigned, Transaction.WireSignature.isPresent]
  have acting := actingAccount_eq_ok accepted.acting
  rw [accepted.sender]
  by_cases signed : tx.isSigned
  · rw [if_pos signed] at acting
    obtain ⟨chain, signer, answer, found⟩ := acting
    obtain rfl := (linked.account?_eq_some found).1
    rw [if_pos (signed_iff.1 signed)]
    exact ⟨found, answer, chain⟩
  · rw [if_neg signed] at acting
    obtain ⟨sender, claimed, found⟩ := acting
    obtain rfl := (linked.account?_eq_some found).1
    rw [if_neg fun present => signed (signed_iff.2 present)]
    exact ⟨found, claimed, accepted.permitted signed⟩

namespace Regular

variable {settings : Settings} {calls : List Call} {past : List Served} {l : Ledger} {call : Call}

theorem empty : Regular settings [] [] {} where
  toRooted := .empty
  counted identifier := by simp [transactionsOf, Ledger.lastNonce, Ledger.account?]
  unharmed := List.forall_mem_nil _
  authorised := List.forall_mem_nil _

/-- One call more. -/
theorem extend (regular : Regular settings calls past l) {served : Served} {after : Ledger}
    (rooted : Rooted (calls ++ [call]) after)
    (counted : ∀ identifier, List.range' 1 (l.lastNonce identifier) ++
      (served.ranAs? identifier).toList.map (·.nonce.toNat) =
        List.range' 1 (after.lastNonce identifier))
    (unharmed : ∀ cause, served.outcome = .error cause → served.after = served.before)
    (authorised : served.Authorised settings) :
    Regular settings (calls ++ [call]) (past ++ [served]) after where
  toRooted := rooted
  counted identifier := by
    rw [transactionsOf_snoc, List.map_append, regular.counted identifier, counted identifier]
  unharmed := List.forall_mem_append.2
    ⟨regular.unharmed, List.forall_mem_singleton.2 unharmed⟩
  authorised := List.forall_mem_append.2
    ⟨regular.authorised, List.forall_mem_singleton.2 authorised⟩

theorem failed (regular : Regular settings calls past l) (call : Call) (cause : Error) :
    Regular settings (calls ++ [call]) (past ++ [⟨call, l, .error cause, l⟩]) l := by
  refine regular.extend (regular.toRooted.append _) (fun _ => List.append_nil _) (fun _ _ => rfl) ?_
  intro receipt never
  cases never

theorem created (regular : Regular settings calls past l) {name : String} {address : Address}
    (distinct : Distinct (calls ++ [.createAccount name address]))
    (free : l.accountByName? name = none) :
    Regular settings (calls ++ [.createAccount name address])
      (past ++ [⟨.createAccount name address, l,
        .ok (.linked (ContractAddress.identifier name address)),
        l.insertAccount ⟨name, ContractAddress.identifier name address, 0, 0⟩⟩])
      (l.insertAccount ⟨name, ContractAddress.identifier name address, 0, 0⟩) := by
  have free_identifier := regular.toRooted.free_identifier distinct free
  refine regular.extend (regular.toRooted.created distinct free) ?_ ?_ ?_
  · intro identifier
    have unused := Ledger.lastNonce_insertAccount regular.linked
      ⟨name, ContractAddress.identifier name address, 0, 0⟩ free free_identifier rfl identifier
    rw [unused]
    exact List.append_nil _
  · intro cause never
    cases never
  · intro receipt never
    cases never

theorem accepted (regular : Regular settings calls past l) {resolve : Resolver}
    {request : Request} {receipt : Receipt} {tx : Transaction} {account : LinkedAccount}
    {after : Ledger} (asked : call.request? = some (resolve, request))
    (accepted : Accepted settings resolve request l receipt after tx account) :
    Regular settings (calls ++ [call]) (past ++ [⟨call, l, .ok (.accepted receipt), after⟩])
      after := by
  obtain ⟨found, rightful⟩ := accepted.before regular.linked
  obtain ⟨gas, code, outcome, ran, written⟩ := accepted.ran
  obtain ⟨ends, nonces⟩ := Ledger.sameAccounts_accept regular.linked found outcome.effects
    tx.nonce.toNat
  rw [← written] at ends nonces
  refine regular.extend ((regular.toRooted.of_sameAccounts ends).append _) ?_ ?_ ?_
  · intro identifier
    rw [nonces identifier]
    simp only [Served.ranAs?, asked, accepted.parsed]
    by_cases same : identifier = receipt.sender
    · subst same
      rw [if_pos rfl, if_pos rfl, accepted.next, Ledger.lastNonce_of_linked found,
        List.range'_concat, Nat.one_mul, Nat.add_comm 1]
      exact congrArg (_ ++ [·]) accepted.next
    · rw [if_neg (Ne.symm same), if_neg same]
      exact List.append_nil _
  · intro cause never
    cases never
  · rintro _ ⟨⟩
    obtain ⟨as_sender, as_origin⟩ := frameFor_sender l tx receipt.sender gas code
    exact ⟨resolve, request, tx, account, asked, accepted.parsed, found,
      ⟨_, gas, code, outcome, rfl, as_sender, as_origin, ran, written⟩, rightful⟩

theorem serve (regular : Regular settings calls past l) (distinct : Distinct (calls ++ [call])) :
    Regular settings (calls ++ [call]) (past ++ [Submission.serve settings l call])
      (Submission.serve settings l call).after := by
  rcases serve_cases settings l call with ⟨cause, served⟩ |
    ⟨name, address, rfl, free, served⟩ |
    ⟨resolve, request, receipt, tx, account, after, asked, accepted, served⟩
  · rw [served]
    exact regular.failed call cause
  · rw [served]
    exact regular.created distinct free
  · rw [served]
    exact regular.accepted asked accepted

end Regular

theorem regular_history (settings : Settings) (calls : List Call) (distinct : Distinct calls) :
    Regular settings calls (history settings {} calls) (ledgerAfter settings {} calls) := by
  induction calls using List.reverseRecOn with
  | nil => exact .empty
  | append_singleton calls call ih =>
      rw [history_snoc, ledgerAfter_snoc]
      exact (ih distinct.of_append).serve distinct

/-- From an empty ledger on, for any settings and any calls: a call that fails leaves all tables
as they were.  An account that is linked is found by its name and by its identifier; the
transactions that ran as it have the nonces 1, 2, 3 and so on in the order of their acceptance, up
to the stored nonce, so none of them was accepted twice.  And every accepted transaction was
authorised by a signature on this chain, or by the owner of the account that it ran as. -/
theorem replay_free (settings : Settings) (calls : List Call) (distinct : Distinct calls) :
    (∀ served ∈ history settings {} calls, ∀ cause, served.outcome = .error cause →
      served.after = served.before) ∧
    (∀ name account, (ledgerAfter settings {} calls).accountByName? name = some account →
      account.name = name ∧
      (ledgerAfter settings {} calls).account? account.identifier = some account) ∧
    (∀ identifier account, (ledgerAfter settings {} calls).account? identifier = some account →
      account.identifier = identifier ∧
      (ledgerAfter settings {} calls).accountByName? account.name = some account ∧
      (transactionsOf identifier (history settings {} calls)).map (·.nonce.toNat) =
        List.range' 1 account.nonce ∧
      (transactionsOf identifier (history settings {} calls)).length = account.nonce ∧
      (transactionsOf identifier (history settings {} calls)).Nodup) ∧
    ∀ served ∈ history settings {} calls, served.Authorised settings := by
  have regular := regular_history settings calls distinct
  refine ⟨regular.unharmed, fun name account found => regular.linked.accountByName?_eq_some found,
    fun identifier account found => ?_, regular.authorised⟩
  obtain ⟨same, by_name⟩ := regular.linked.account?_eq_some found
  have nonces := regular.counted identifier
  rw [Ledger.lastNonce_of_linked found] at nonces
  refine ⟨same, by_name, nonces, ?_, ?_⟩
  · rw [← List.length_map (f := (·.nonce.toNat)), nonces, List.length_range']
  · refine List.Nodup.of_map (·.nonce.toNat) ?_
    rw [nonces]
    exact List.nodup_range'

/-! ## Two accounts -/

/-- The identifier of the one who pays. -/
def alice : Address := ContractAddress.identifier "alice" .zero

/-- A call of alice's own identifier. -/
def selfCall (nonce : Word) (signature : Transaction.WireSignature) : Transaction where
  action := .call alice
  nonce := nonce
  gasPrice := 0
  gasLimit := 30000
  value := 0
  data := []
  signature := signature

/-- Alice and bob are linked, alice twice.  Alice hands in a transaction; bob hands it in for her,
and she hands it in again.  At last a transaction that is signed for the right chain runs code that
makes her identifier destroy itself. -/
def quarrel : List Call :=
  let first := (selfCall 1 {}).encode
  [.createAccount "alice" .zero, .createAccount "bob" .zero, .createAccount "alice" .zero,
    .submit recovery { raw := first, claimed := some alice, caller := some "alice" },
    .submit recovery { raw := (selfCall 2 {}).encode, claimed := some alice, caller := some "bob" },
    .submit recovery { raw := first, claimed := some alice, caller := some "alice" },
    .executeCode (fun _ => .ok alice) [0x33, 0xff] { raw := (selfCall 2 ⟨37, [1], [1]⟩).encode }]

theorem distinct_quarrel : Distinct quarrel := by
  have named : ∀ {name address}, .createAccount name address ∈ quarrel →
      address = .zero ∧ (name = "alice" ∨ name = "bob") := by
    intro name address among
    simp only [quarrel, List.mem_cons, Call.createAccount.injEq, reduceCtorEq, List.not_mem_nil,
      or_false] at among
    rcases among with ⟨rfl, rfl⟩ | ⟨rfl, rfl⟩ | ⟨rfl, rfl⟩
    · exact ⟨rfl, Or.inl rfl⟩
    · exact ⟨rfl, Or.inr rfl⟩
    · exact ⟨rfl, Or.inl rfl⟩
  have apart : ContractAddress.identifier "alice" .zero ≠ ContractAddress.identifier "bob" .zero := by
    decide +kernel
  intro name address name' address' among among' same
  obtain ⟨rfl, rfl | rfl⟩ := named among
  · obtain ⟨rfl, rfl | rfl⟩ := named among'
    · rfl
    · exact absurd same apart
  · obtain ⟨rfl, rfl | rfl⟩ := named among'
    · exact absurd same.symm apart
    · rfl

/-- Two of the transactions were accepted, each of them once, and both ran as alice, who is linked
also after her identifier has destroyed itself. -/
theorem replay_free_quarrel :
    Distinct quarrel ∧
    ((history { allowRawCode := true } {} quarrel).map fun served => served.outcome.isOk) =
      [true, true, false, true, false, false, true] ∧
    (ledgerAfter { allowRawCode := true } {} quarrel).suicides = #[alice] ∧
    ∃ account, (ledgerAfter { allowRawCode := true } {} quarrel).account? alice = some account ∧
      account.identifier = alice ∧ account.nonce = 2 ∧
      (transactionsOf alice (history { allowRawCode := true } {} quarrel)).map (·.nonce.toNat) =
        [1, 2] ∧
      ∀ served ∈ history { allowRawCode := true } {} quarrel,
        served.Authorised { allowRawCode := true } := by
  obtain ⟨-, -, counted, authorised⟩ :=
    replay_free { allowRawCode := true } quarrel distinct_quarrel
  refine ⟨distinct_quarrel, by decide +kernel, by decide +kernel, ?_⟩
  have stored : (((ledgerAfter { allowRawCode := true } {} quarrel).account? alice).map
      (·.nonce)) = some 2 := by decide +kernel
  obtain ⟨account, found, nonce⟩ := Option.map_eq_some_iff.1 stored
  obtain ⟨same, -, nonces, -⟩ := counted alice account found
  rw [nonce] at nonces
  exact ⟨account, found, same, nonce, nonces, authorised⟩

end EvmLedger.Submission
