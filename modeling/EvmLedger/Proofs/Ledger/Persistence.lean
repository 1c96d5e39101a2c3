/-
# EvmLedger.Proofs.Ledger.Persistence -- effects written to a ledger

A ledger keeps balances in two tables and stores no slots that hold zero, so it differs
from the host kept in maps in everything but the order in which it is written to.  What
a single write does to it is the same nevertheless (`lawful`), but for one thing: two
identifiers may lead to one linked account, and then a payment to the one is a payment
to the other.

From the laws follows what both hosts answer after they have persisted the effects of
a run (`persisting_refines_overlay`).  `balance_apply` is the case of a balance, in a ledger
where no two identifiers share an account.  That no account is linked twice is up to
those who link accounts (`twice_linked_hears`).
-/
import EvmLedger.Proofs.Ledger.Balance
import EvmLedger.Proofs.Persistence

namespace EvmLedger.Ledger

set_option autoImplicit false

open Vm (Account Backend Contents Effects Host Overlay Slot Store)

/-! ## Single writes -/

/-- Payments go to the linked account that an address leads to, if there is one. -/
def store : Store Ledger where
  contents l :=
    { l.host with
      linked := fun address => (l.account? address).isSome
      shares := l.Shares
      logs := l.logs
      suicides := l.suicides }
  setSlot l slot value := l.setSlot (Crypto.storageKey slot.contract slot.key) value
  setBalance := setBalance
  setCode := setCode
  setNonce := setNonce
  log := log
  suicide := suicide

/-- What a ledger says of a slot is what it tells the machine. -/
theorem slot_host (l : Ledger) (contract : Address) (key : Word) :
    l.host.slot contract key = l.slot contract key := by
  unfold Host.slot host slot slotAt
  cases found : l.storage[Crypto.storageKey contract key]? with
  | none =>
      simp only [found]
      rfl
  | some value =>
      simp only [found]
      exact Word.ofBytesTruncating_toBytes value

theorem contents_setSlot (l : Ledger) (key : Hash) (value : Word) :
    store.contents (l.setSlot key value) = { store.contents l with
      storageAt := Function.update l.host.storageAt key
        (if value = 0 then [] else value.toBytes) } := by
  have stored : (l.setSlot key value).host.storageAt =
      Function.update l.host.storageAt key (if value = 0 then [] else value.toBytes) := by
    funext other
    rw [Function.update_apply]
    unfold host setSlot
    split
    · simp only [Std.ExtTreeMap.getElem?_erase, Std.compare_eq_iff_eq, eq_comm (a := key)]
      by_cases same : other = key
      · simp [same]
      · simp [same]
    · simp only [Std.ExtTreeMap.getElem?_insert, Std.compare_eq_iff_eq, eq_comm (a := key)]
      by_cases same : other = key
      · simp [same]
      · simp [same]
  rw [← stored]
  rfl

/-- Nothing of an account can be seen here but its balance. -/
theorem contents_modifyAccount (l : Ledger) (identifier : Address)
    (f : LinkedAccount → LinkedAccount) :
    store.contents (l.modifyAccount identifier f) =
      { store.contents l with balance := (l.modifyAccount identifier f).balance } := by
  have same : l.SameAccounts (fun _ => ()) (l.modifyAccount identifier f) :=
    l.sameAccounts_modifyAccount identifier fun _ => rfl
  have linked := funext same.isSome_account?
  have shares := funext fun a => funext fun b => propext (same.shares a b)
  obtain ⟨accounts, written⟩ := l.modifyAccount_eq identifier f
  rw [written] at linked shares ⊢
  exact Contents.ext rfl rfl rfl rfl linked shares rfl rfl

theorem contents_modifyContract (l : Ledger) (address : Address) (f : Account → Account) :
    store.contents (l.modifyContract address f) = { store.contents l with
      code := Function.update l.host.code address (f (l.contract address)).code
      nonce := Function.update l.host.nonce address (f (l.contract address)).nonce
      balance := (l.modifyContract address f).balance } := by
  have seen {β : Type} (view : Account → β) :
      (fun other => view ((l.modifyContract address f).contract other)) =
        Function.update (fun other => view (l.contract other)) address
          (view (f (l.contract address))) := by
    funext other
    rw [contract_modifyContract, Function.update_apply, apply_ite view]
  exact Contents.ext (seen (·.code)) rfl rfl (seen (·.nonce)) rfl rfl rfl rfl

theorem contents_setBalance (l : Ledger) (address : Address) (value : Word) :
    store.contents (l.setBalance address value) =
      { store.contents l with balance := (l.setBalance address value).balance } := by
  unfold setBalance
  split
  · exact l.contents_modifyAccount address _
  · refine (l.contents_modifyContract address _).trans ?_
    simp [store, host]

theorem lawful : store.Lawful where
  setSlot l slot value := by
    refine ⟨_, ?_, l.contents_setSlot slot.storageKey value⟩
    split
    · rename_i zero
      exact zero.symm
    · exact Word.ofBytesTruncating_toBytes value
  setBalance l address value := by
    refine ⟨_, l.contents_setBalance address value, fun other apart => ?_⟩
    rw [l.balance_setBalance address value apart, Function.update_apply]
    rfl
  setCode l address code := by
    refine (l.contents_modifyContract address ({ · with code := code })).trans ?_
    rw [l.balance_modifyContract address (f := ({ · with code := code })) fun _ => rfl]
    simp [store, host]
  setNonce l address nonce := by
    refine (l.contents_modifyContract address ({ · with nonce := nonce })).trans ?_
    rw [l.balance_modifyContract address (f := ({ · with nonce := nonce })) fun _ => rfl]
    simp [store, host]
  log l entry := rfl
  suicide l address := by
    have gone {β : Type} (view : Account → β) (other : Address) :
        view ((l.suicide address).contract other) =
          if other ∈ [address] then view {} else view (l.contract other) := by
      rw [contract_suicide, apply_ite view]
      simp only [List.mem_singleton]
    have balance : (l.suicide address).balance = fun other =>
        if other ∈ [address] ∧ ¬(l.account? other).isSome then 0 else l.balance other := by
      funext other
      simpa using l.balance_suicide address other
    have received : l.suicides.push address = l.suicides ++ [address] := by simp
    exact Contents.ext (funext (gone (·.code))) balance rfl (funext (gone (·.nonce))) rfl rfl rfl
      received

/-! ## All effects -/

theorem persisted (l : Ledger) (e : Effects) :
    (store.contents l).Persisted e (store.contents (l.apply e)) :=
  lawful.persisted l e

/-- Where no two identifiers share an account, an address hears of no payment but its own. -/
theorem Identified.unshared {l : Ledger} (identified : l.Identified) (e : Effects)
    (address : Address) : (store.contents l).Unshared e address :=
  fun _ _ => identified.apart

/-- A balance after the effects of a run: the one that was written, if there is one, unless it was
that of a contract that was destroyed. -/
theorem balance_apply {l : Ledger} (identified : l.Identified) (e : Effects) (address : Address) :
    (l.apply e).balance address =
      if address ∈ e.suicides ∧ l.account? address = none then 0
      else (e.balances[address]?).getD (l.balance address) := by
  have persisted := l.persisted e
  split
  · rename_i gone
    refine (persisted.destroyed address gone.1).2.2 fun linked => ?_
    exact Option.isSome_iff_ne_none.1 linked gone.2
  · rename_i stays
    refine (persisted.balance address (identified.unshared e address) fun destroyed => ?_).trans
      (Overlay.balance_eq_flatten _ _ _)
    exact Option.isSome_iff_ne_none.2 fun unlinked => stays ⟨destroyed, unlinked⟩

/-- For any effects and any tables: what is read of a host that has persisted the effects is what
was read through them before, where accounts that destroyed themselves are gone.  A slot is read so
if no other slot is written under its key.  A balance is read so if no other address is paid that
leads to the same linked account; there is none where the host is kept in maps, and none in a
ledger in which no two identifiers share an account.  Hence a host kept in maps and a ledger that
agree as to such slots, as to such balances, of which none is that of a linked account that is
destroyed, and as to the code and the nonces of any addresses, agree as to them afterwards. -/
theorem persisting_refines_overlay (e : Effects) :
    (∀ b : Backend,
      (Backend.store.contents b).Persisted e (Backend.store.contents (b.apply e)) ∧
      ∀ address, (Backend.store.contents b).Unshared e address) ∧
    (∀ l : Ledger,
      (store.contents l).Persisted e (store.contents (l.apply e)) ∧
      (∀ contract key, (l.apply e).host.slot contract key = (l.apply e).slot contract key) ∧
      (l.Identified → ∀ address, (store.contents l).Unshared e address)) ∧
    ∀ (b : Backend) (l : Ledger) (slots : Set Slot) (holders addresses : Set Address),
      b.host.AgreeOn slots holders addresses l.host →
      (∀ slot ∈ slots, e.Distinguishes slot) →
      (∀ address ∈ holders, (store.contents l).Unshared e address) →
      (∀ address ∈ holders, address ∈ e.suicides → l.account? address = none) →
      (b.apply e).host.AgreeOn slots holders addresses (l.apply e).host := by
  refine ⟨fun b => ⟨Backend.persisted b e, fun address => Backend.unshared b e address⟩,
    fun l => ⟨l.persisted e, (l.apply e).slot_host, fun identified => identified.unshared e⟩, ?_⟩
  intro b l slots holders addresses agree distinguished unshared unlinked
  refine (Backend.persisted b e).agreeOn (l.persisted e) agree distinguished
    (fun address among => ⟨Backend.unshared b e address, unshared address among⟩) ?_
  intro address among gone
  refine ⟨Bool.false_ne_true, fun linked => ?_⟩
  exact Option.isSome_iff_ne_none.1 linked (unlinked address among gone)

/-- A slot is cleared and another one is set, the account 1 pays one unit to the contract 9, which
is created, and the contract 8 destroys itself. -/
def someEffects : Effects where
  storage := (({} : Std.ExtTreeMap Slot Word).insert ⟨⟨9⟩, 1⟩ 0).insert ⟨⟨9⟩, 2⟩ 7
  balances := (({} : Std.ExtTreeMap Address Word).insert ⟨1⟩ 4).insert ⟨9⟩ 1
  codes := ({} : Std.ExtTreeMap Address Bytes).insert ⟨9⟩ [0x00]
  nonces := ({} : Std.ExtTreeMap Address Nat).insert ⟨9⟩ 1
  logs := #[⟨⟨9⟩, [], [1]⟩]
  suicides := ({} : Std.ExtTreeSet Address).insert ⟨8⟩

/-- A host kept in maps with an account, a contract and a slot. -/
def someMaps : Backend :=
  ((({} : Backend).modify ⟨1⟩ ({ · with balance := 5 })).modify ⟨8⟩
    ({ · with code := [0x33, 0xff], balance := 2 })).setStorage ⟨9⟩ 1 6

/-- A ledger with the same account, contract and slot. -/
def someTables : Ledger :=
  ((({} : Ledger).insertAccount ⟨"alice", ⟨1⟩, 0, 5⟩).modifyContract ⟨8⟩
    ({ · with code := [0x33, 0xff], balance := 2 })).setSlot (Crypto.storageKey ⟨9⟩ 1) 6

/-- Slots that are cleared, set and left alone. -/
def someSlots : List Slot := [⟨⟨9⟩, 1⟩, ⟨⟨9⟩, 2⟩, ⟨⟨9⟩, 3⟩]

/-- Both hosts have written the slots, moved the unit and created and removed the contracts; the
ledger has also forgotten the slot that was cleared. -/
theorem persisting_refines_overlay_alike :
    (someMaps.apply someEffects).host.AgreeOn {slot | slot ∈ someSlots}
      {address | address ∈ [⟨1⟩, ⟨8⟩, ⟨9⟩]} {address | address ∈ [⟨1⟩, ⟨7⟩, ⟨8⟩, ⟨9⟩]}
      (someTables.apply someEffects).host ∧
    (someTables.apply someEffects).slot ⟨9⟩ 1 = 0 ∧ (someTables.apply someEffects).slot ⟨9⟩ 2 = 7 ∧
    (someTables.apply someEffects).storage.size = 1 ∧
    (someTables.apply someEffects).balance ⟨1⟩ = 4 ∧
    (someTables.apply someEffects).host.code ⟨8⟩ = [] := by
  obtain ⟨-, ledgers, hosts⟩ := persisting_refines_overlay someEffects
  have linked : (({} : Ledger).insertAccount ⟨"alice", ⟨1⟩, 0, 5⟩).WellLinked :=
    WellLinked.empty.insertAccount rfl rfl
  have identified : someTables.Identified := linked.toIdentified
  have written : ∀ other ∈ someEffects.storage.keys, ∀ slot ∈ someSlots,
      other.storageKey = slot.storageKey → other = slot := by decide +kernel
  have slots : ∀ slot ∈ someSlots,
      someMaps.host.slot slot.contract slot.key = someTables.host.slot slot.contract slot.key := by
    decide +kernel
  have balances : ∀ address ∈ [(⟨1⟩ : Address), ⟨8⟩, ⟨9⟩],
      someMaps.host.balance address = someTables.host.balance address ∧
      (address ∈ someEffects.suicides → someTables.account? address = none) := by decide +kernel
  have contracts : ∀ address ∈ [(⟨1⟩ : Address), ⟨7⟩, ⟨8⟩, ⟨9⟩],
      someMaps.host.code address = someTables.host.code address ∧
      someMaps.host.nonce address = someTables.host.nonce address := by decide +kernel
  refine ⟨hosts someMaps someTables _ _ _ ⟨slots, fun address among => (balances address among).1,
      fun address among => (contracts address among).1,
      fun address among => (contracts address among).2⟩ ?_ ?_ ?_,
    by decide +kernel, by decide +kernel, by decide +kernel, by decide +kernel, by decide +kernel⟩
  · exact fun slot among other wrote =>
      written other (Std.ExtTreeMap.mem_keys.2 wrote) slot among
  · exact fun address _ => (ledgers someTables).2.2 identified address
  · exact fun address among => (balances address among).2

/-- A ledger in which alice was linked twice, so that two identifiers lead to her account. -/
def twiceLinked : Ledger :=
  (({} : Ledger).insertAccount ⟨"alice", ⟨1⟩, 0, 10⟩).insertAccount ⟨"alice", ⟨2⟩, 0, 10⟩

/-- The second of them pays one unit. -/
def payment : Effects where
  balances := (({} : Std.ExtTreeMap Address Word).insert ⟨2⟩ 9).insert ⟨3⟩ 1

/-- The first one hears of the payment, which it has no part in. -/
theorem twice_linked_hears :
    (⟨1⟩ : Address) ∉ payment.suicides ∧
    ({ current := payment } : Overlay).balance twiceLinked.host ⟨1⟩ = 10 ∧
    (twiceLinked.apply payment).balance ⟨1⟩ = 9 := by
  decide +kernel

end EvmLedger.Ledger
