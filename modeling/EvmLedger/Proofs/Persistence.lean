/-
# EvmLedger.Proofs.Persistence -- effects written to a host

What a run leaves behind is written to the tables of its host: slots, balances, code
and nonces, and then log entries and self-destructions are handed over.  There are two
kinds of hosts with tables of their own, and both are written to in this order
(`Store.persist`).  All that they have to answer for is what a single write does
(`Store.Lawful`).

It does not matter in which order a map of writes is gone through (`foldl_writes`).
Afterwards a host answers as the machine was answered before, when these effects
were all that stood between it and the host; only an account that has destroyed itself
is gone (`Contents.Persisted`, `Store.Lawful.persisted`).  So two hosts that agreed
go on to agree (`Contents.Persisted.agreeOn`).

Two things can stand in the way of reading what was written: another slot that is
written under the same key, and another address whose balance is written and which
leads to the same account.  Both are conditions on the place that is read.
-/
import EvmLedger.Proofs.ContractAddress
import EvmLedger.Proofs.Overlay.View
import EvmLedger.Vm.Backend

namespace EvmLedger.Vm

set_option autoImplicit false

/-! ## Maps of writes -/

section Writes

variable {κ α σ : Type} [Ord κ] [Std.TransOrd κ] [Std.LawfulEqOrd κ] [DecidableEq κ]

theorem ofList_toList (writes : Std.ExtTreeMap κ α) :
    Std.ExtTreeMap.ofList writes.toList = writes := by
  refine Std.ExtTreeMap.ext_getElem? fun place => ?_
  cases found : writes[place]? with
  | some value =>
      exact Std.ExtTreeMap.getElem?_ofList_of_mem Std.ReflCmp.compare_self
        writes.distinct_keys_toList (Std.ExtTreeMap.mem_toList_iff_getElem?_eq_some.2 found)
  | none =>
      refine Std.ExtTreeMap.getElem?_ofList_of_contains_eq_false ?_
      simpa using found

/-- What holds when nothing is written yet, and is kept by each of the writes, holds when all of
them have been made. -/
theorem foldl_writes {writes : Std.ExtTreeMap κ α} {write : σ → κ → α → σ} {s : σ}
    {motive : Std.ExtTreeMap κ α → σ → Prop} (start : motive ∅ s)
    (step : ∀ done s' place value, place ∈ writes → motive done s' →
      motive (done.insert place value) (write s' place value)) :
    motive writes (writes.foldl write s) := by
  -- The writes still to come are a list; what has been done is a map again.
  have along : ∀ (next : List (κ × α)) (done : Std.ExtTreeMap κ α) (s' : σ),
      next ⊆ writes.toList → motive done s' →
      motive (next.foldl (fun done w => done.insert w.1 w.2) done)
        (next.foldl (fun s w => write s w.1 w.2) s') := by
    intro next
    induction next with
    | nil => exact fun _ _ _ holds => holds
    | cons w rest ih =>
        intro done s' among holds
        obtain ⟨first, others⟩ := List.cons_subset.1 among
        have place : w.1 ∈ writes := Std.ExtTreeMap.mem_iff_isSome_getElem?.2
          (Option.isSome_of_eq_some (Std.ExtTreeMap.mem_toList_iff_getElem?_eq_some.1 first))
        exact ih _ _ others (step done s' w.1 w.2 place holds)
  have all := along writes.toList ∅ s (List.Subset.refl _) start
  rwa [← Std.ExtTreeMap.ofList_eq_foldl, ofList_toList,
    ← Std.ExtTreeMap.foldl_eq_foldl_toList] at all

end Writes

/-! ## Hosts that are written to -/

/-- What a host holds: what the machine may ask of it, and besides which addresses are those of
linked accounts, and what has been handed over to it. -/
@[ext]
structure Contents extends Host where
  /-- whether an address leads to a linked account -/
  linked : Address → Bool
  /-- whether two addresses lead to the same linked account -/
  shares : Address → Address → Prop
  logs : Array Log
  /-- the self-destructions received, in order -/
  suicides : Array Address

namespace Contents

/-- What is held when accounts have been destroyed.  Those that are linked keep their balances. -/
def destroy (c : Contents) (gone : List Address) : Contents :=
  { c with
    code := fun address => if address ∈ gone then [] else c.code address
    nonce := fun address => if address ∈ gone then 0 else c.nonce address
    balance := fun address =>
      if address ∈ gone ∧ ¬c.linked address then 0 else c.balance address
    suicides := c.suicides ++ gone }

theorem destroy_nil (c : Contents) : c.destroy [] = c := by
  simp [destroy]

theorem destroy_cons (c : Contents) (first : Address) (rest : List Address) :
    c.destroy (first :: rest) = (c.destroy [first]).destroy rest := by
  simp only [destroy, Contents.mk.injEq, Host.mk.injEq, List.mem_cons, List.not_mem_nil, or_false]
  refine ⟨⟨?_, ?_, trivial, ?_⟩, trivial, trivial, trivial, ?_⟩
  · funext address
    by_cases last : address ∈ rest
    · simp [last]
    · simp [last]
  · funext address
    by_cases last : address ∈ rest
    · by_cases linked : c.linked address
      · simp [linked]
      · simp [last, linked]
    · simp [last]
  · funext address
    by_cases last : address ∈ rest
    · simp [last]
    · simp [last]
  · simp

end Contents

/-- The tables of a host, with the writes that effects are persisted by. -/
structure Store (σ : Type) where
  contents : σ → Contents
  setSlot : σ → Slot → Word → σ
  setBalance : σ → Address → Word → σ
  setCode : σ → Address → Bytes → σ
  setNonce : σ → Address → Nat → σ
  log : σ → Log → σ
  suicide : σ → Address → σ

namespace Store

variable {σ : Type}

/-- Persists the effects of a run. -/
def persist (S : Store σ) (s : σ) (e : Effects) : σ :=
  let s := e.storage.foldl S.setSlot s
  let s := e.balances.foldl S.setBalance s
  let s := e.codes.foldl S.setCode s
  let s := e.nonces.foldl S.setNonce s
  let s := e.logs.foldl S.log s
  e.suicides.foldl S.suicide s

/-- What a single write does.  Each is read at its own place and nowhere else, but that a balance
may be heard of at other addresses which lead to the same account. -/
structure Lawful (S : Store σ) : Prop where
  setSlot : ∀ s slot value, ∃ bytes, Word.ofBytesTruncating bytes = value ∧
    S.contents (S.setSlot s slot value) = { S.contents s with
      storageAt := Function.update (S.contents s).storageAt slot.storageKey bytes }
  setBalance : ∀ s address value, ∃ balance,
    S.contents (S.setBalance s address value) = { S.contents s with balance := balance } ∧
    ∀ other, ((S.contents s).shares other address → other = address) →
      balance other = Function.update (S.contents s).balance address value other
  setCode : ∀ s address code, S.contents (S.setCode s address code) =
    { S.contents s with code := Function.update (S.contents s).code address code }
  setNonce : ∀ s address nonce, S.contents (S.setNonce s address nonce) =
    { S.contents s with nonce := Function.update (S.contents s).nonce address nonce }
  log : ∀ s entry, S.contents (S.log s entry) =
    { S.contents s with logs := (S.contents s).logs.push entry }
  suicide : ∀ s address, S.contents (S.suicide s address) = (S.contents s).destroy [address]

end Store

/-! ## What is read afterwards -/

/-- No other slot is written under the key of this one. -/
def Effects.Distinguishes (e : Effects) (slot : Slot) : Prop :=
  ∀ other ∈ e.storage, other.storageKey = slot.storageKey → other = slot

/-- No other address is paid whose account is also that of this one. -/
def Contents.Unshared (c : Contents) (e : Effects) (address : Address) : Prop :=
  ∀ other ∈ e.balances, c.shares address other → address = other

/-- What is read after effects have been persisted: what is read through them before.  An account
that destroyed itself has no code and no nonce any more, and no balance unless it is linked. -/
structure Contents.Persisted (e : Effects) (before after : Contents) : Prop where
  slot : ∀ slot, e.Distinguishes slot →
    after.slot slot.contract slot.key =
      ({ current := e } : Overlay).storage before.toHost slot.contract slot.key
  balance : ∀ address, before.Unshared e address →
    (address ∈ e.suicides → before.linked address) →
    after.balance address = ({ current := e } : Overlay).balance before.toHost address
  code : ∀ address, address ∉ e.suicides →
    after.code address = ({ current := e } : Overlay).code before.toHost address
  nonce : ∀ address, address ∉ e.suicides →
    after.nonce address = ({ current := e } : Overlay).nonce before.toHost address
  destroyed : ∀ address ∈ e.suicides, after.code address = [] ∧ after.nonce address = 0 ∧
    (¬before.linked address → after.balance address = 0)
  logs : after.logs = before.logs ++ e.logs
  suicides : after.suicides = before.suicides ++ e.suicides.toList

namespace Store.Lawful

variable {σ : Type} {S : Store σ}

theorem contents_setSlots (lawful : S.Lawful) (s : σ) (writes : Std.ExtTreeMap Slot Word) :
    ∃ storageAt,
      S.contents (writes.foldl S.setSlot s) = { S.contents s with storageAt := storageAt } ∧
      ∀ slot : Slot, (∀ other ∈ writes, other.storageKey = slot.storageKey → other = slot) →
        Word.ofBytesTruncating (storageAt slot.storageKey) =
          (writes[slot]?).getD ((S.contents s).slot slot.contract slot.key) := by
  refine foldl_writes (motive := fun done s' => ∃ storageAt,
    S.contents s' = { S.contents s with storageAt := storageAt } ∧
    ∀ slot : Slot, (∀ other ∈ writes, other.storageKey = slot.storageKey → other = slot) →
      Word.ofBytesTruncating (storageAt slot.storageKey) =
        (done[slot]?).getD ((S.contents s).slot slot.contract slot.key)) ?_ ?_
  · exact ⟨_, rfl, fun slot _ => by rw [Std.ExtTreeMap.getElem?_empty]; rfl⟩
  · rintro done s' place value among ⟨storageAt, held, read⟩
    obtain ⟨bytes, rfl, written⟩ := lawful.setSlot s' place value
    rw [held] at written
    refine ⟨_, written, fun slot apart => ?_⟩
    have here := congrFun (Overlay.getD_insert done place (Word.ofBytesTruncating bytes)
      fun slot => (S.contents s).slot slot.contract slot.key) slot
    rw [here]
    by_cases same : slot = place
    · rw [same, Function.update_self, Function.update_self]
    · have keys_apart : slot.storageKey ≠ place.storageKey := fun keys =>
        same (apart place among keys.symm).symm
      rw [Function.update_of_ne keys_apart, Function.update_of_ne same]
      exact read slot apart

theorem contents_setBalances (lawful : S.Lawful) (s : σ) (writes : Std.ExtTreeMap Address Word) :
    ∃ balance,
      S.contents (writes.foldl S.setBalance s) = { S.contents s with balance := balance } ∧
      ∀ address, (∀ other ∈ writes, (S.contents s).shares address other → address = other) →
        balance address = (writes[address]?).getD ((S.contents s).balance address) := by
  refine foldl_writes (motive := fun done s' => ∃ balance,
    S.contents s' = { S.contents s with balance := balance } ∧
    ∀ address, (∀ other ∈ writes, (S.contents s).shares address other → address = other) →
      balance address = (done[address]?).getD ((S.contents s).balance address)) ?_ ?_
  · exact ⟨_, rfl, fun address _ => by rw [Std.ExtTreeMap.getElem?_empty]; rfl⟩
  · rintro done s' place value among ⟨balance, held, read⟩
    obtain ⟨balance', written, heard⟩ := lawful.setBalance s' place value
    rw [held] at written heard
    refine ⟨balance', written, fun address apart => ?_⟩
    have here := congrFun (Overlay.getD_insert done place value (S.contents s).balance) address
    rw [heard address (apart place among), here]
    by_cases same : address = place
    · rw [same, Function.update_self, Function.update_self]
    · rw [Function.update_of_ne same, Function.update_of_ne same]
      exact read address apart

theorem contents_setCodes (lawful : S.Lawful) (s : σ) (writes : Std.ExtTreeMap Address Bytes) :
    S.contents (writes.foldl S.setCode s) = { S.contents s with
      code := fun address => (writes[address]?).getD ((S.contents s).code address) } := by
  refine foldl_writes (motive := fun (done : Std.ExtTreeMap Address Bytes) s' =>
    S.contents s' = { S.contents s with
      code := fun address => (done[address]?).getD ((S.contents s).code address) }) ?_ ?_
  · simp
  · intro done s' place value _ held
    rw [lawful.setCode, held, Overlay.getD_insert]

theorem contents_setNonces (lawful : S.Lawful) (s : σ) (writes : Std.ExtTreeMap Address Nat) :
    S.contents (writes.foldl S.setNonce s) = { S.contents s with
      nonce := fun address => (writes[address]?).getD ((S.contents s).nonce address) } := by
  refine foldl_writes (motive := fun (done : Std.ExtTreeMap Address Nat) s' =>
    S.contents s' = { S.contents s with
      nonce := fun address => (done[address]?).getD ((S.contents s).nonce address) }) ?_ ?_
  · simp
  · intro done s' place value _ held
    rw [lawful.setNonce, held, Overlay.getD_insert]

theorem contents_logs (lawful : S.Lawful) (s : σ) (entries : Array Log) :
    S.contents (entries.foldl S.log s) =
      { S.contents s with logs := (S.contents s).logs ++ entries } := by
  have listed : ∀ (entries : List Log) (s : σ), S.contents (entries.foldl S.log s) =
      { S.contents s with logs := (S.contents s).logs ++ entries } := by
    intro entries
    induction entries with
    | nil => simp
    | cons entry rest ih =>
        intro s
        rw [List.foldl_cons, ih, lawful.log]
        simp
  have same : (S.contents s).logs ++ entries.toList = (S.contents s).logs ++ entries := by
    rw [← Array.append_eq_append]
    exact Array.toList_inj.1 (by simp)
  rw [← Array.foldl_toList, listed, same]

theorem contents_suicides (lawful : S.Lawful) (s : σ) (gone : List Address) :
    S.contents (gone.foldl S.suicide s) = (S.contents s).destroy gone := by
  induction gone generalizing s with
  | nil => exact (S.contents s).destroy_nil.symm
  | cons first rest ih => rw [List.foldl_cons, ih, lawful.suicide, ← Contents.destroy_cons]

/-- Everything is written before the first account is destroyed. -/
theorem contents_persist (lawful : S.Lawful) (s : σ) (e : Effects) :
    ∃ storageAt balance,
      S.contents (S.persist s e) = { S.contents s with
        storageAt := storageAt
        balance := balance
        code := fun address => (e.codes[address]?).getD ((S.contents s).code address)
        nonce := fun address => (e.nonces[address]?).getD ((S.contents s).nonce address)
        logs := (S.contents s).logs ++ e.logs : Contents }.destroy e.suicides.toList ∧
      (∀ slot, e.Distinguishes slot → Word.ofBytesTruncating (storageAt slot.storageKey) =
        (e.storage[slot]?).getD ((S.contents s).slot slot.contract slot.key)) ∧
      ∀ address, (S.contents s).Unshared e address →
        balance address = (e.balances[address]?).getD ((S.contents s).balance address) := by
  obtain ⟨storageAt, stored, slots⟩ := lawful.contents_setSlots s e.storage
  obtain ⟨balance, paid, balances⟩ :=
    lawful.contents_setBalances (e.storage.foldl S.setSlot s) e.balances
  rw [stored] at paid balances
  refine ⟨storageAt, balance, ?_, slots, balances⟩
  unfold persist
  rw [Std.ExtTreeSet.foldl_eq_foldl_toList, lawful.contents_suicides, lawful.contents_logs,
    lawful.contents_setNonces, lawful.contents_setCodes, paid]

theorem persisted (lawful : S.Lawful) (s : σ) (e : Effects) :
    (S.contents s).Persisted e (S.contents (S.persist s e)) := by
  obtain ⟨storageAt, balance, held, slots, balances⟩ := lawful.contents_persist s e
  rw [held]
  constructor
  case slot =>
    intro slot distinguished
    rw [Overlay.storage_eq_flatten]
    exact slots slot distinguished
  case balance =>
    intro address unshared stays
    rw [Overlay.balance_eq_flatten]
    have still : ¬(address ∈ e.suicides.toList ∧ ¬(S.contents s).linked address) :=
      fun gone => gone.2 (stays (Std.ExtTreeSet.mem_toList.1 gone.1))
    exact (if_neg still).trans (balances address unshared)
  case code =>
    intro address stays
    rw [Overlay.code_eq_flatten]
    exact if_neg (mt Std.ExtTreeSet.mem_toList.1 stays)
  case nonce =>
    intro address stays
    rw [Overlay.nonce_eq_flatten]
    exact if_neg (mt Std.ExtTreeSet.mem_toList.1 stays)
  case destroyed =>
    intro address gone
    have listed : address ∈ e.suicides.toList := Std.ExtTreeSet.mem_toList.2 gone
    exact ⟨if_pos listed, if_pos listed, fun unlinked => if_pos ⟨listed, unlinked⟩⟩
  case logs => rfl
  case suicides => rfl

end Store.Lawful

/-! ## Hosts that agree -/

/-- Two hosts answer alike as to some slots, as to the balances of some holders, and as to the code
and the nonces of some addresses.  Of a slot its value counts, and not the bytes that it is stored
as. -/
structure Host.AgreeOn (slots : Set Slot) (holders addresses : Set Address) (h h' : Host) :
    Prop where
  slot : ∀ slot ∈ slots, h.slot slot.contract slot.key = h'.slot slot.contract slot.key
  balance : ∀ address ∈ holders, h.balance address = h'.balance address
  code : ∀ address ∈ addresses, h.code address = h'.code address
  nonce : ∀ address ∈ addresses, h.nonce address = h'.nonce address

/-- Hosts that agree still do so when both have persisted the same effects.  Only balances ask for
more than that of an address. -/
theorem Contents.Persisted.agreeOn {e : Effects} {c after c' after' : Contents}
    (persisted : c.Persisted e after) (persisted' : c'.Persisted e after') {slots : Set Slot}
    {holders addresses : Set Address}
    (agree : Host.AgreeOn slots holders addresses c.toHost c'.toHost)
    (distinguished : ∀ slot ∈ slots, e.Distinguishes slot)
    (unshared : ∀ address ∈ holders, c.Unshared e address ∧ c'.Unshared e address)
    (unlinked : ∀ address ∈ holders, address ∈ e.suicides →
      ¬c.linked address ∧ ¬c'.linked address) :
    Host.AgreeOn slots holders addresses after.toHost after'.toHost := by
  constructor
  case slot =>
    intro slot among
    rw [persisted.slot slot (distinguished slot among),
      persisted'.slot slot (distinguished slot among), Overlay.storage, Overlay.storage,
      agree.slot slot among]
  case balance =>
    intro address among
    obtain ⟨apart, apart'⟩ := unshared address among
    by_cases gone : address ∈ e.suicides
    · obtain ⟨unlinked, unlinked'⟩ := unlinked address among gone
      rw [(persisted.destroyed address gone).2.2 unlinked,
        (persisted'.destroyed address gone).2.2 unlinked']
    · rw [persisted.balance address apart fun gone' => absurd gone' gone,
        persisted'.balance address apart' fun gone' => absurd gone' gone, Overlay.balance,
        Overlay.balance, agree.balance address among]
  case code =>
    intro address among
    by_cases gone : address ∈ e.suicides
    · rw [(persisted.destroyed address gone).1, (persisted'.destroyed address gone).1]
    · rw [persisted.code address gone, persisted'.code address gone, Overlay.code, Overlay.code,
        agree.code address among]
  case nonce =>
    intro address among
    by_cases gone : address ∈ e.suicides
    · rw [(persisted.destroyed address gone).2.1, (persisted'.destroyed address gone).2.1]
    · rw [persisted.nonce address gone, persisted'.nonce address gone, Overlay.nonce,
        Overlay.nonce, agree.nonce address among]

/-! ## The host kept in maps -/

namespace Backend

/-- No account is linked here. -/
def store : Store Backend where
  contents b :=
    { b.host with
      linked := fun _ => false
      shares := fun _ _ => False
      logs := b.logs
      suicides := b.suicides }
  setSlot b slot value := b.setStorage slot.contract slot.key value
  setBalance b address balance := b.modify address ({ · with balance := balance })
  setCode b address code := b.modify address ({ · with code := code })
  setNonce b address nonce := b.modify address ({ · with nonce := nonce })
  log := log
  suicide := suicide

theorem account_modify (b : Backend) (address : Address) (f : Account → Account) :
    (b.modify address f).account = Function.update b.account address (f (b.account address)) :=
  Overlay.getD_insert b.accounts address _ fun _ => {}

theorem account_suicide (b : Backend) (address other : Address) :
    (b.suicide address).account other = if other = address then {} else b.account other := by
  unfold account suicide
  simp only [Std.ExtTreeMap.getElem?_erase, Std.compare_eq_iff_eq, eq_comm (a := address)]
  split
  · rfl
  · rfl

theorem contents_modify (b : Backend) (address : Address) (f : Account → Account) :
    store.contents (b.modify address f) = { store.contents b with
      code := Function.update b.host.code address (f (b.account address)).code
      balance := Function.update b.host.balance address (f (b.account address)).balance
      nonce := Function.update b.host.nonce address (f (b.account address)).nonce } := by
  have seen {β : Type} (view : Account → β) :
      (fun other => view ((b.modify address f).account other)) =
        Function.update (fun other => view (b.account other)) address
          (view (f (b.account address))) := by
    rw [account_modify]
    exact Function.comp_update view b.account address _
  simp only [store, host, seen]
  rfl

theorem lawful : store.Lawful where
  setSlot b slot value := by
    refine ⟨value.toBytes, Word.ofBytesTruncating_toBytes value, ?_⟩
    have stored := Overlay.getD_insert b.storage slot.storageKey value.toBytes fun _ => []
    simp only [store, host, setStorage, ← stored]
    rfl
  setBalance b address value := by
    refine ⟨_, (contents_modify b address _).trans ?_, fun _ _ => rfl⟩
    simp [host, store]
  setCode b address code := by
    refine (contents_modify b address _).trans ?_
    simp [host, store]
  setNonce b address nonce := by
    refine (contents_modify b address _).trans ?_
    simp [host, store]
  log b entry := rfl
  suicide b address := by
    simp only [store, host, Contents.destroy, account_suicide, apply_ite Account.code,
      apply_ite Account.balance, apply_ite Account.nonce, List.mem_singleton, Bool.false_eq_true,
      not_false_eq_true, and_true]
    simp [suicide]

theorem persisted (b : Backend) (e : Effects) :
    (store.contents b).Persisted e (store.contents (b.apply e)) :=
  lawful.persisted b e

theorem unshared (b : Backend) (e : Effects) (address : Address) :
    (store.contents b).Unshared e address :=
  fun _ _ => False.elim

end Backend

end EvmLedger.Vm
