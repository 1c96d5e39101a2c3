/-
# EvmLedger.Proofs.Ledger.Registry -- names and identifiers under every operation

Besides the calls of a history a ledger takes writes that no transaction stands
behind: a deposit, installed code, a slot, a self-destruction.  They go wherever they
are told to, also to the identifiers of linked accounts (`Operation`).

`operate_cases` says what one operation can do to the tables of accounts: it links an
account under a name that was free, or it leaves every name with its identifier.  So
the tables stay in order along all operations (`rooted_operateAll`), and a name that
is linked once is linked to that identifier from then on (`operateAll_keeps`).  What
that means for those who read the tables and write to single accounts is said by
`Ledger.Registry`; `registry_inverse` draws the conclusions.
-/
import EvmLedger.Proofs.Ledger.History

namespace EvmLedger

set_option autoImplicit false

namespace Ledger

/-! ## Writes to one account -/

theorem accountByName?_insertAccount (l : Ledger) (account : LinkedAccount) (name : String) :
    (l.insertAccount account).accountByName? name =
      if name = account.name then some account else l.accountByName? name := by
  unfold accountByName? insertAccount
  simp only [Std.ExtTreeMap.getElem?_insert, Std.compare_eq_iff_eq, eq_comm (a := account.name)]

/-- What is changed through an identifier is the record of its account, and no other. -/
theorem WellLinked.accountByName?_modifyAccount {l : Ledger} (linked : l.WellLinked)
    {name : String} {account : LinkedAccount} (found : l.accountByName? name = some account)
    (f : LinkedAccount → LinkedAccount) (other : String) :
    (l.modifyAccount account.identifier f).accountByName? other =
      if other = name then some (f account) else l.accountByName? other := by
  have by_identifier := (linked.named found).2
  have by_name : l.accounts[name]? = some account := found
  unfold modifyAccount accountByName?
  simp only [by_identifier, by_name, Std.ExtTreeMap.getElem?_insert, Std.compare_eq_iff_eq,
    eq_comm (a := name)]

theorem setBalance_of_linked {l : Ledger} {address : Address} {account : LinkedAccount}
    (found : l.account? address = some account) (balance : Word) :
    l.setBalance address balance = l.modifyAccount address ({ · with balance := balance }) := by
  unfold setBalance
  rw [found]

/-- Names and identifiers lead to the same accounts, and every name has a record to itself. -/
structure Registry (l : Ledger) : Prop where
  inverse : ∀ identifier account, l.account? identifier = some account ↔
    l.accountByName? account.name = some account ∧ account.identifier = identifier
  named : ∀ name account, l.accountByName? name = some account → account.name = name
  apart : ∀ name account name' account', l.accountByName? name = some account →
    l.accountByName? name' = some account' → name ≠ name' →
      account.identifier ≠ account'.identifier
  /-- a nonce that is written through an identifier is that of one name only -/
  nonce : ∀ name account, l.accountByName? name = some account → ∀ other nonce,
    (l.setAccountNonce account.identifier nonce).accountByName? other =
      if other = name then some { account with nonce := nonce } else l.accountByName? other
  /-- and so is a balance -/
  balance : ∀ name account, l.accountByName? name = some account → ∀ other balance,
    (l.setBalance account.identifier balance).accountByName? other =
      if other = name then some { account with balance := balance } else l.accountByName? other

theorem WellLinked.registry {l : Ledger} (linked : l.WellLinked) : l.Registry where
  inverse identifier account := by
    constructor
    · exact fun found => (linked.account?_eq_some found).symm
    · rintro ⟨found, rfl⟩
      exact (linked.accountByName?_eq_some found).2
  named name account found := (linked.accountByName?_eq_some found).1
  apart name account name' account' found found' names same := by
    have by_identifier := (linked.named found).2
    rw [same, (linked.named found').2] at by_identifier
    exact names (Option.some.inj by_identifier).symm
  nonce name account found other nonce := linked.accountByName?_modifyAccount found _ other
  balance name account found other balance := by
    rw [setBalance_of_linked (linked.accountByName?_eq_some found).2]
    exact linked.accountByName?_modifyAccount found _ other

end Ledger

namespace Submission

/-! ## Operations -/

/-- What can be done to a ledger: a call is served, or something is written directly. -/
inductive Operation where
  | serve (call : Call)
  | setAccountNonce (identifier : Address) (nonce : Nat)
  | setBalance (address : Address) (balance : Word)
  | setCode (address : Address) (code : Bytes)
  | setNonce (address : Address) (nonce : Nat)
  | setSlot (key : Hash) (value : Word)
  | suicide (address : Address)

namespace Operation

/-- The call that is served, if one is. -/
def call? : Operation → Option Call
  | .serve call => some call
  | _ => none

end Operation

/-- The ledger after one operation. -/
def operate (settings : Settings) (l : Ledger) : Operation → Ledger
  | .serve call => (serve settings l call).after
  | .setAccountNonce identifier nonce => l.setAccountNonce identifier nonce
  | .setBalance address balance => l.setBalance address balance
  | .setCode address code => l.setCode address code
  | .setNonce address nonce => l.setNonce address nonce
  | .setSlot key value => l.setSlot key value
  | .suicide address => l.suicide address

/-- The ledger after operations in a row. -/
def operateAll (settings : Settings) (l : Ledger) (operations : List Operation) : Ledger :=
  operations.foldl (operate settings) l

/-- The calls among operations. -/
def callsOf (operations : List Operation) : List Call :=
  operations.filterMap (·.call?)

theorem callsOf_snoc (operations : List Operation) (operation : Operation) :
    callsOf (operations ++ [operation]) = callsOf operations ++ operation.call?.toList := by
  simp only [callsOf, List.filterMap_append, List.filterMap_cons, List.filterMap_nil]
  cases operation.call? with
  | none => rfl
  | some call => rfl

theorem mem_callsOf {operations : List Operation} {call : Call} :
    call ∈ callsOf operations ↔ .serve call ∈ operations := by
  unfold callsOf
  rw [List.mem_filterMap]
  constructor
  · rintro ⟨operation, among, asked⟩
    cases operation with
    | serve served =>
        cases asked
        exact among
    | setAccountNonce | setBalance | setCode | setNonce | setSlot | suicide => cases asked
  · exact fun among => ⟨.serve call, among, rfl⟩

theorem operateAll_append (settings : Settings) (l : Ledger) (earlier later : List Operation) :
    operateAll settings l (earlier ++ later) =
      operateAll settings (operateAll settings l earlier) later :=
  List.foldl_append

/-! ## One operation -/

theorem Accepted.sameAccounts {settings : Settings} {resolve : Resolver} {request : Request}
    {l after : Ledger} {receipt : Receipt} {tx : Transaction} {account : LinkedAccount}
    (accepted : Accepted settings resolve request l receipt after tx account) :
    l.SameAccounts LinkedAccount.ends after := by
  obtain ⟨gas, code, outcome, -, rfl⟩ := accepted.ran
  have paid : l.SameAccounts LinkedAccount.ends (l.apply outcome.effects) :=
    (l.sameAccounts_apply outcome.effects).map Prod.fst
  exact paid.trans (Ledger.sameAccounts_setAccountNonce _ _ _)

/-- An operation links an account under a name that was free, or it leaves every name with its
identifier. -/
theorem operate_cases (settings : Settings) (l : Ledger) (operation : Operation) :
    (∃ name address, operation = .serve (.createAccount name address) ∧
      l.accountByName? name = none ∧ operate settings l operation =
        l.insertAccount ⟨name, ContractAddress.identifier name address, 0, 0⟩) ∨
    l.SameAccounts LinkedAccount.ends (operate settings l operation) := by
  cases operation with
  | serve call =>
      rcases serve_cases settings l call with ⟨cause, served⟩ |
        ⟨name, address, rfl, free, served⟩ |
        ⟨resolve, request, receipt, tx, account, after, asked, accepted, served⟩
      · refine .inr ?_
        rw [operate, served]
        exact .refl l
      · exact .inl ⟨name, address, rfl, free, by rw [operate, served]⟩
      · refine .inr ?_
        rw [operate, served]
        exact accepted.sameAccounts
  | setAccountNonce identifier nonce => exact .inr (l.sameAccounts_setAccountNonce _ _)
  | setBalance address balance => exact .inr ((l.sameAccounts_setBalance _ _).map Prod.fst)
  | setCode address code => exact .inr ⟨rfl, fun _ => rfl⟩
  | setNonce address nonce => exact .inr ⟨rfl, fun _ => rfl⟩
  | setSlot key value => exact .inr ⟨rfl, fun _ => rfl⟩
  | suicide address => exact .inr ⟨rfl, fun _ => rfl⟩

/-- A name keeps the identifier that it is linked to. -/
theorem operate_keeps (settings : Settings) {l : Ledger} (operation : Operation) {name : String}
    {account : LinkedAccount} (found : l.accountByName? name = some account) :
    ∃ later, (operate settings l operation).accountByName? name = some later ∧
      later.identifier = account.identifier := by
  rcases operate_cases settings l operation with ⟨fresh, address, rfl, free, written⟩ | same
  · have apart : name ≠ fresh := by
      rintro rfl
      cases free.symm.trans found
    refine ⟨account, ?_, rfl⟩
    rw [written, Ledger.accountByName?_insertAccount, if_neg apart, found]
  · obtain ⟨later, found_later, ends⟩ := same.exists_account found
    exact ⟨later, found_later, (Prod.mk.inj ends).2⟩

/-- After an account was asked for its name is linked, by this call or by an earlier one. -/
theorem linked_createAccount (settings : Settings) (l : Ledger) (name : String)
    (address : Address) :
    ∃ account, (operate settings l (.serve (.createAccount name address))).accountByName? name =
      some account := by
  cases free : l.accountByName? name with
  | some account =>
      obtain ⟨later, found, -⟩ :=
        operate_keeps settings (.serve (.createAccount name address)) free
      exact ⟨later, found⟩
  | none =>
      have worked : (Call.work settings (.createAccount name address)).run l =
          .ok (.linked (ContractAddress.identifier name address))
            (l.insertAccount ⟨name, ContractAddress.identifier name address, 0, 0⟩) := by
        show (Answer.linked <$> link name address) l = _
        simp only [Functor.map, EStateM.map, link_of_free free]
      refine ⟨⟨name, ContractAddress.identifier name address, 0, 0⟩, ?_⟩
      rw [operate, serve, worked, Ledger.accountByName?_insertAccount, if_pos rfl]

theorem rooted_operate {settings : Settings} {operations : List Operation} {l : Ledger}
    (rooted : Rooted (callsOf operations) l) (operation : Operation)
    (distinct : Distinct (callsOf (operations ++ [operation]))) :
    Rooted (callsOf (operations ++ [operation])) (operate settings l operation) := by
  rw [callsOf_snoc] at distinct ⊢
  rcases operate_cases settings l operation with ⟨name, address, rfl, free, written⟩ | same
  · rw [written]
    exact rooted.created distinct free
  · exact (rooted.of_sameAccounts same).append _

/-! ## All operations -/

theorem rooted_operateAll (settings : Settings) (operations : List Operation)
    (distinct : Distinct (callsOf operations)) :
    Rooted (callsOf operations) (operateAll settings {} operations) := by
  induction operations using List.reverseRecOn with
  | nil => exact .empty
  | append_singleton operations operation ih =>
      have earlier : Distinct (callsOf operations) := by
        rw [callsOf_snoc] at distinct
        exact distinct.of_append
      rw [operateAll_append]
      exact rooted_operate (ih earlier) operation distinct

theorem operateAll_keeps (settings : Settings) (operations : List Operation) {l : Ledger}
    {name : String} {account : LinkedAccount} (found : l.accountByName? name = some account) :
    ∃ later, (operateAll settings l operations).accountByName? name = some later ∧
      later.identifier = account.identifier := by
  induction operations generalizing l account with
  | nil => exact ⟨account, found, rfl⟩
  | cons operation operations ih =>
      obtain ⟨next, found_next, same⟩ := operate_keeps settings operation found
      obtain ⟨later, found_later, same_later⟩ := ih found_next
      exact ⟨later, found_later, same_later.trans same⟩

/-- From an empty ledger on, for any settings and any operations, also self-destructions and
deposits for identifiers of linked accounts: names and identifiers lead to the same accounts, and
no two names share a record.  The names that are linked are those that were asked for, and a name
that is linked at some point is linked to the same identifier at every later one. -/
theorem registry_inverse (settings : Settings) (operations : List Operation)
    (distinct : Distinct (callsOf operations)) :
    (operateAll settings {} operations).Registry ∧
    (∀ name, (∃ account, (operateAll settings {} operations).accountByName? name = some account) ↔
      ∃ address, .serve (.createAccount name address) ∈ operations) ∧
    ∀ earlier later name account, operations = earlier ++ later →
      (operateAll settings {} earlier).accountByName? name = some account →
        ∃ still, (operateAll settings {} operations).accountByName? name = some still ∧
          (operateAll settings {} operations).account? account.identifier = some still := by
  have rooted := rooted_operateAll settings operations distinct
  have linked := rooted.linked
  refine ⟨linked.registry, fun name => ⟨?_, ?_⟩, ?_⟩
  · rintro ⟨account, found⟩
    obtain ⟨address, among, -⟩ := rooted.origin name account found
    exact ⟨address, mem_callsOf.1 among⟩
  · rintro ⟨address, among⟩
    obtain ⟨earlier, later, rfl⟩ := List.append_of_mem among
    obtain ⟨account, found⟩ := linked_createAccount settings (operateAll settings {} earlier) name
      address
    obtain ⟨still, found_still, -⟩ := operateAll_keeps settings later found
    rw [operateAll_append]
    exact ⟨still, found_still⟩
  · rintro earlier later name account rfl found
    rw [operateAll_append] at linked ⊢
    obtain ⟨still, found_still, same⟩ := operateAll_keeps settings later found
    refine ⟨still, found_still, ?_⟩
    rw [← same]
    exact (linked.accountByName?_eq_some found_still).2

/-- After the quarrel alice's identifier is destroyed once more; then it is paid, and it is given
another nonce. -/
def aftermath : List Operation :=
  quarrel.map .serve ++ [.suicide alice, .setBalance alice 5, .setAccountNonce alice 9]

/-- Alice is linked by the first operation, and still after the last.  What was written is hers,
and bob has nothing of it. -/
theorem registry_inverse_aftermath :
    Distinct (callsOf aftermath) ∧
    (∃ still, (operateAll { allowRawCode := true } {} aftermath).accountByName? "alice" =
        some still ∧ still.nonce = 9 ∧ still.balance = 5 ∧
      (operateAll { allowRawCode := true } {} aftermath).account? alice = some still) ∧
    (operateAll { allowRawCode := true } {} aftermath).accountByName? "bob" =
      some ⟨"bob", ContractAddress.identifier "bob" .zero, 0, 0⟩ ∧
    alice ≠ ContractAddress.identifier "bob" .zero := by
  have distinct : Distinct (callsOf aftermath) := distinct_quarrel
  have bob : (operateAll { allowRawCode := true } {} aftermath).accountByName? "bob" =
      some ⟨"bob", ContractAddress.identifier "bob" .zero, 0, 0⟩ := by decide +kernel
  have stored : ((operateAll { allowRawCode := true } {} aftermath).accountByName? "alice").map
      (fun account => (account.nonce, account.balance)) = some (9, 5) := by decide +kernel
  have first : (operateAll { allowRawCode := true } {} (aftermath.take 1)).accountByName? "alice" =
      some ⟨"alice", alice, 0, 0⟩ := by decide +kernel
  obtain ⟨registry, -, kept⟩ := registry_inverse { allowRawCode := true } aftermath distinct
  obtain ⟨still, found, by_identifier⟩ := kept _ (aftermath.drop 1) _ _ rfl first
  have same : still.identifier = alice := ((registry.inverse _ _).1 by_identifier).2
  rw [found, Option.map_some] at stored
  obtain ⟨nonce, balance⟩ := Prod.mk.inj (Option.some.inj stored)
  have apart := registry.apart _ _ _ _ found bob (by decide)
  rw [same] at apart
  exact ⟨distinct, ⟨still, found, nonce, balance, by_identifier⟩, bob, apart⟩

end Submission

end EvmLedger
