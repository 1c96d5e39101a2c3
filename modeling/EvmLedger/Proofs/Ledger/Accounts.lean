/-
# EvmLedger.Proofs.Ledger.Accounts -- which accounts are linked, and with which nonce

Two tables hold a linked account, one by name and one by identifier.  In a ledger
that starts empty each is the inverse of the other (`WellLinked`).  One half of
that is kept even when an account is given the identifier of another one
(`Identified`), and it suffices to find the account that was written.

What reaches a ledger after its accounts are linked leaves the links alone.  How
much more than that it leaves alone is said by a view of an account
(`SameAccounts`): the effects of a run change nothing but balances
(`sameAccounts_apply`), whatever addresses they are for; a new nonce changes
nothing but the nonce of one account (`lastNonce_setAccountNonce`).  An accepted
transaction does the one and then the other (`sameAccounts_accept`).
-/
import EvmLedger.Ledger

namespace EvmLedger

set_option autoImplicit false

open Vm (Account Effects)

namespace LinkedAccount

/-- What makes an account linked. -/
def ends (account : LinkedAccount) : String × Address :=
  (account.name, account.identifier)

/-- An account apart from its balance. -/
def standing (account : LinkedAccount) : (String × Address) × Nat :=
  (account.ends, account.nonce)

end LinkedAccount

namespace Ledger

/-- Two identifiers lead to the same linked account. -/
def Shares (l : Ledger) (a b : Address) : Prop :=
  ∃ name : String, l.identifiers[a]? = some name ∧ l.identifiers[b]? = some name ∧
    (l.accounts[name]?).isSome

/-! ## Writes that leave accounts alone -/

/-- The same accounts are linked, as far as a view of them tells. -/
structure SameAccounts {β : Type} (view : LinkedAccount → β) (l l' : Ledger) : Prop where
  identifiers : l'.identifiers = l.identifiers
  accounts : ∀ name : String, (l'.accounts[name]?).map view = (l.accounts[name]?).map view

namespace SameAccounts

variable {β γ : Type} {view : LinkedAccount → β} {l l' l'' : Ledger}

theorem refl (l : Ledger) : l.SameAccounts view l := ⟨rfl, fun _ => rfl⟩

theorem trans (first : l.SameAccounts view l') (second : l'.SameAccounts view l'') :
    l.SameAccounts view l'' :=
  ⟨second.identifiers.trans first.identifiers,
    fun name => (second.accounts name).trans (first.accounts name)⟩

/-- A view that tells less. -/
theorem map (same : l.SameAccounts view l') (f : β → γ) : l.SameAccounts (f ∘ view) l' := by
  refine ⟨same.identifiers, fun name => ?_⟩
  rw [← Option.map_map, same.accounts name, Option.map_map]

theorem account? (same : l.SameAccounts view l') (identifier : Address) :
    (l'.account? identifier).map view = (l.account? identifier).map view := by
  unfold Ledger.account?
  rw [same.identifiers]
  cases l.identifiers[identifier]? with
  | none => rfl
  | some name => exact same.accounts name

theorem symm (same : l.SameAccounts view l') : l'.SameAccounts view l :=
  ⟨same.identifiers.symm, fun name => (same.accounts name).symm⟩

/-- An account that is linked in one of them is linked in the other. -/
theorem exists_account (same : l.SameAccounts view l') {name : String} {account : LinkedAccount}
    (found : l.accounts[name]? = some account) :
    ∃ account', l'.accounts[name]? = some account' ∧ view account' = view account := by
  have seen := same.accounts name
  rw [found, Option.map_some] at seen
  exact Option.map_eq_some_iff.1 seen

theorem exists_account? (same : l.SameAccounts view l') {identifier : Address}
    {account : LinkedAccount} (found : l.account? identifier = some account) :
    ∃ account', l'.account? identifier = some account' ∧ view account' = view account := by
  have seen := same.account? identifier
  rw [found, Option.map_some] at seen
  exact Option.map_eq_some_iff.1 seen

theorem isSome_account? (same : l.SameAccounts view l') (identifier : Address) :
    (l'.account? identifier).isSome = (l.account? identifier).isSome := by
  rw [← Option.isSome_map (f := view), same.account?, Option.isSome_map]

theorem shares (same : l.SameAccounts view l') (a b : Address) :
    l'.Shares a b ↔ l.Shares a b := by
  have linked : ∀ name : String, (l'.accounts[name]?).isSome = (l.accounts[name]?).isSome :=
    fun name => by rw [← Option.isSome_map (f := view), same.accounts, Option.isSome_map]
  unfold Shares
  simp only [same.identifiers, linked]

/-- A step at a time. -/
theorem foldl {α : Type} {step : Ledger → α → Ledger}
    (each : ∀ (l : Ledger) (a : α), l.SameAccounts view (step l a)) (l : Ledger) (steps : List α) :
    l.SameAccounts view (steps.foldl step l) :=
  List.foldlRecOn steps step (refl l) fun _ before a _ => before.trans (each _ a)

end SameAccounts

section Writes

variable {β : Type} {view : LinkedAccount → β}

theorem sameAccounts_modifyAccount (l : Ledger) (identifier : Address)
    {f : LinkedAccount → LinkedAccount} (unseen : ∀ account, view (f account) = view account) :
    l.SameAccounts view (l.modifyAccount identifier f) := by
  unfold modifyAccount
  split
  · exact .refl l
  · split
    · exact .refl l
    · rename_i name _ account found
      refine ⟨rfl, fun name' => ?_⟩
      simp only [Std.ExtTreeMap.getElem?_insert, Std.compare_eq_iff_eq]
      split
      · rename_i same
        subst same
        rw [found, Option.map_some, Option.map_some, unseen]
      · rfl

theorem sameAccounts_setBalance (l : Ledger) (address : Address) (balance : Word) :
    l.SameAccounts LinkedAccount.standing (l.setBalance address balance) := by
  unfold setBalance
  split
  · exact sameAccounts_modifyAccount l address fun _ => rfl
  · exact ⟨rfl, fun _ => rfl⟩

/-- The effects of a run change nothing about linked accounts but their balances. -/
theorem sameAccounts_apply (l : Ledger) (e : Effects) :
    l.SameAccounts LinkedAccount.standing (l.apply e) := by
  unfold apply
  simp only [Std.ExtTreeMap.foldl_eq_foldl_toList, Std.ExtTreeSet.foldl_eq_foldl_toList,
    ← Array.foldl_toList]
  refine .trans (.foldl (fun l entry => ?_) _ _) <| .trans (.foldl (fun l entry => ?_) _ _) <|
    .trans (.foldl (fun l entry => ?_) _ _) <| .trans (.foldl (fun l entry => ?_) _ _) <|
    .trans (.foldl (fun l entry => ?_) _ _) (.foldl (fun l entry => ?_) _ _)
  · exact ⟨rfl, fun _ => rfl⟩
  · exact sameAccounts_setBalance l entry.1 entry.2
  · exact ⟨rfl, fun _ => rfl⟩
  · exact ⟨rfl, fun _ => rfl⟩
  · exact ⟨rfl, fun _ => rfl⟩
  · exact ⟨rfl, fun _ => rfl⟩

theorem sameAccounts_setAccountNonce (l : Ledger) (identifier : Address) (nonce : Nat) :
    l.SameAccounts LinkedAccount.ends (l.setAccountNonce identifier nonce) :=
  sameAccounts_modifyAccount l identifier fun _ => rfl

end Writes

/-! ## Links -/

/-- Every identifier is that of the account with the name it leads to, so no two identifiers share
an account. -/
def Identified (l : Ledger) : Prop :=
  ∀ (identifier : Address) (name : String), l.identifiers[identifier]? = some name →
    ∃ account, l.accounts[name]? = some account ∧ account.identifier = identifier

namespace Identified

variable {l l' : Ledger}

theorem of_sameAccounts (identified : l.Identified)
    (same : l.SameAccounts LinkedAccount.ends l') : l'.Identified := by
  intro identifier name found
  rw [same.identifiers] at found
  obtain ⟨account, found', rfl⟩ := identified identifier name found
  obtain ⟨account', found, ends⟩ := same.exists_account found'
  exact ⟨account', found, (Prod.mk.inj ends).2⟩

theorem insertAccount (identified : l.Identified) {account : LinkedAccount}
    (free_name : l.accountByName? account.name = none) : (l.insertAccount account).Identified := by
  intro identifier name found
  simp only [Ledger.insertAccount, Std.ExtTreeMap.getElem?_insert, Std.compare_eq_iff_eq]
    at found ⊢
  split at found
  · rename_i same_identifier
    cases found
    exact ⟨account, if_pos rfl, same_identifier⟩
  · obtain ⟨other, by_name, same_identifier⟩ := identified identifier name found
    refine ⟨other, ?_, same_identifier⟩
    rw [if_neg, by_name]
    rintro same_name
    rw [← same_name] at by_name
    cases free_name.symm.trans by_name

theorem apart (identified : l.Identified) {a b : Address} (shared : l.Shares a b) : a = b := by
  obtain ⟨name, leads, leads', -⟩ := shared
  obtain ⟨account, found, rfl⟩ := identified a name leads
  obtain ⟨account', found', rfl⟩ := identified b name leads'
  rw [Option.some.inj (found.symm.trans found')]

end Identified

/-- A change to one account is seen through its identifier, and through another one only if that
leads to the same account. -/
theorem account?_modifyAccount {l : Ledger} {address : Address} {account : LinkedAccount}
    (found : l.account? address = some account) (f : LinkedAccount → LinkedAccount)
    {other : Address} (apart : l.Shares other address → other = address) :
    (l.modifyAccount address f).account? other =
      if other = address then some (f account) else l.account? other := by
  obtain ⟨name, by_identifier, by_name⟩ := Option.bind_eq_some_iff.1 found
  have written : l.modifyAccount address f =
      { l with accounts := l.accounts.insert name (f account) } := by
    unfold modifyAccount
    simp only [by_identifier, by_name]
  rw [written]
  unfold account?
  split
  · rename_i same
    rw [same, by_identifier]
    simp [Std.ExtTreeMap.getElem?_insert]
  · rename_i other_address
    cases other_identifier : l.identifiers[other]? with
    | none => rfl
    | some other_name =>
        have named_apart : name ≠ other_name := by
          rintro rfl
          exact other_address (apart ⟨name, other_identifier, by_identifier, by simp [by_name]⟩)
        simp [Std.ExtTreeMap.getElem?_insert, named_apart]

/-- The tables of names and identifiers are each the inverse of the other. -/
structure WellLinked (l : Ledger) : Prop where
  named : ∀ {name : String} {account : LinkedAccount}, l.accounts[name]? = some account →
    account.name = name ∧ l.identifiers[account.identifier]? = some name
  identified : ∀ {identifier : Address} {name : String}, l.identifiers[identifier]? = some name →
    ∃ account, l.accounts[name]? = some account ∧ account.identifier = identifier

namespace WellLinked

variable {l l' : Ledger} {name : String} {identifier : Address} {account : LinkedAccount}

theorem empty : WellLinked {} :=
  ⟨fun found => by simp at found, fun found => by simp at found⟩

theorem toIdentified (linked : l.WellLinked) : l.Identified := fun _ _ => linked.identified

theorem account?_eq_some (linked : l.WellLinked) (found : l.account? identifier = some account) :
    account.identifier = identifier ∧ l.accountByName? account.name = some account := by
  unfold account? at found
  obtain ⟨name, by_identifier, by_name⟩ := Option.bind_eq_some_iff.1 found
  obtain ⟨account', by_name', same_identifier⟩ := linked.identified by_identifier
  obtain rfl := Option.some.inj (by_name'.symm.trans by_name)
  refine ⟨same_identifier, ?_⟩
  rw [(linked.named by_name).1]
  exact by_name

theorem accountByName?_eq_some (linked : l.WellLinked)
    (found : l.accountByName? name = some account) :
    account.name = name ∧ l.account? account.identifier = some account := by
  obtain ⟨same_name, by_identifier⟩ := linked.named found
  exact ⟨same_name, Option.bind_eq_some_iff.2 ⟨name, by_identifier, found⟩⟩

theorem of_sameAccounts (linked : l.WellLinked) (same : l.SameAccounts LinkedAccount.ends l') :
    l'.WellLinked := by
  constructor
  · intro name account found
    obtain ⟨earlier, found_earlier, ends⟩ := same.symm.exists_account found
    obtain ⟨same_name, same_identifier⟩ := Prod.mk.inj ends
    rw [same.identifiers, ← same_name, ← same_identifier]
    exact linked.named found_earlier
  · exact linked.toIdentified.of_sameAccounts same _ _

theorem insertAccount (linked : l.WellLinked) (free_name : l.accountByName? account.name = none)
    (free_identifier : l.identifiers[account.identifier]? = none) :
    (l.insertAccount account).WellLinked := by
  constructor
  · intro name other found
    simp only [Ledger.insertAccount, Std.ExtTreeMap.getElem?_insert, Std.compare_eq_iff_eq]
      at found ⊢
    split at found
    · rename_i same_name
      cases found
      exact ⟨same_name, (if_pos rfl).trans (congrArg some same_name)⟩
    · obtain ⟨same_name, by_identifier⟩ := linked.named found
      refine ⟨same_name, ?_⟩
      rw [if_neg, by_identifier]
      rintro same_identifier
      rw [← same_identifier, free_identifier] at by_identifier
      cases by_identifier
  · exact linked.toIdentified.insertAccount free_name _ _

end WellLinked

/-! ## Nonces -/

/-- The nonce of the last transaction that was accepted for an identifier; zero where no account
is linked. -/
def lastNonce (l : Ledger) (identifier : Address) : Nat :=
  ((l.account? identifier).map (·.nonce)).getD 0

theorem lastNonce_of_linked {l : Ledger} {identifier : Address} {account : LinkedAccount}
    (found : l.account? identifier = some account) : l.lastNonce identifier = account.nonce := by
  rw [lastNonce, found]
  rfl

theorem SameAccounts.lastNonce {l l' : Ledger} (same : l.SameAccounts LinkedAccount.standing l')
    (identifier : Address) : l'.lastNonce identifier = l.lastNonce identifier :=
  congrArg (Option.getD · 0) ((same.map Prod.snd).account? identifier)

theorem lastNonce_setAccountNonce {l : Ledger} (linked : l.WellLinked) {sender : Address}
    {account : LinkedAccount} (found : l.account? sender = some account) (nonce : Nat)
    (identifier : Address) :
    (l.setAccountNonce sender nonce).lastNonce identifier =
      if identifier = sender then nonce else l.lastNonce identifier := by
  have seen := account?_modifyAccount found ({ · with nonce := nonce })
    (linked.toIdentified.apart (a := identifier))
  unfold lastNonce setAccountNonce
  rw [seen]
  split
  · rfl
  · rfl

/-- What an accepted transaction does to accounts.  Its run may change balances, those of linked
accounts among them; after that one nonce is written. -/
theorem sameAccounts_accept {l : Ledger} (linked : l.WellLinked) {sender : Address}
    {account : LinkedAccount} (found : l.account? sender = some account) (e : Effects)
    (nonce : Nat) :
    l.SameAccounts LinkedAccount.ends ((l.apply e).setAccountNonce sender nonce) ∧
      ∀ identifier, ((l.apply e).setAccountNonce sender nonce).lastNonce identifier =
        if identifier = sender then nonce else l.lastNonce identifier := by
  have paid := sameAccounts_apply l e
  have paid_ends : l.SameAccounts LinkedAccount.ends (l.apply e) := paid.map Prod.fst
  obtain ⟨account_paid, found_paid, -⟩ := paid.exists_account? found
  refine ⟨paid_ends.trans (sameAccounts_setAccountNonce _ sender nonce), fun identifier => ?_⟩
  rw [lastNonce_setAccountNonce (linked.of_sameAccounts paid_ends) found_paid, paid.lastNonce]

theorem lastNonce_insertAccount {l : Ledger} (linked : l.WellLinked) (account : LinkedAccount)
    (free_name : l.accountByName? account.name = none)
    (free_identifier : l.identifiers[account.identifier]? = none) (unused : account.nonce = 0)
    (identifier : Address) :
    (l.insertAccount account).lastNonce identifier = l.lastNonce identifier := by
  unfold lastNonce account? insertAccount
  simp only [Std.ExtTreeMap.getElem?_insert, Std.compare_eq_iff_eq]
  by_cases same : account.identifier = identifier
  · subst same
    rw [if_pos rfl, free_identifier]
    simp [unused]
  · rw [if_neg same]
    cases found : l.identifiers[identifier]? with
    | none => rfl
    | some name =>
        have apart : account.name ≠ name := by
          rintro rfl
          obtain ⟨_, by_name, _⟩ := linked.identified found
          cases free_name.symm.trans by_name
        simp [apart]

end Ledger

end EvmLedger
