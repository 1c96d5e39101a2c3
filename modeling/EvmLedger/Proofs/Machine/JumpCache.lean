/-
# EvmLedger.Proofs.Machine.JumpCache -- a cache that cannot be noticed

Jump tables are kept from one transaction to the next, under the digests of the code
they are for.  A machine with another cache goes through the same steps and tells the
same events, as long as both caches know what they hold (`step_withCache`); so what a
transaction comes to does not depend on the transactions that were executed before
it (`executeObserved_cache`), and neither on the hosts that they were for.

All of this asks that no two pieces of code that are met have the same digest.  The
code that is met is that of the frames that are started (`codesMet`), of the
outermost ones and of those inside of them, initialisation code among it.
-/
import EvmLedger.Proofs.Machine.ControlFlow

namespace EvmLedger.Vm

set_option autoImplicit false

open Crypto (keccak)

namespace Machine

variable {ctx : Context} {m : Machine} {cache : JumpCache} {codes : Set Bytes}

/-- The same machine with another jump cache. -/
def withCache (m : Machine) (cache : JumpCache) : Machine :=
  ⟨{ m.toScene with cache := cache }, m.control⟩

/-- A machine does the same with another cache. -/
theorem step_withCache (apart : codes.InjOn keccak) (knows : m.cache.Knows codes)
    (knows' : cache.Knows codes)
    (among : ∀ params, m.control = .enter params → params.code ∈ codes) :
    ∃ cache', cache'.Knows codes ∧
      step ctx (m.withCache cache) = ((next ctx m).withCache cache', told ctx m) := by
  obtain ⟨scene, control⟩ := m
  cases control with
  | enter params =>
      have table := (knows.fetch apart (among params rfl)).1
      have fetched := knows'.fetch apart (among params rfl)
      simp only [withCache, next, told, step, openFrame]
      cases prepare ctx.host scene.overlay.enter params with
      | error cause => exact ⟨cache, knows', rfl⟩
      | ok overlay => exact ⟨_, fetched.2, by rw [table, fetched.1]⟩
  | running frame =>
      refine ⟨cache, knows', ?_⟩
      simp only [withCache, next, told, step, stepFrame]
      split
      · rfl
      · split <;> rfl
  | halting frame halt => exact ⟨cache, knows', rfl⟩
  | returning result =>
      refine ⟨cache, knows', ?_⟩
      simp only [withCache, next, told, step, stepReturn]
      split
      · rfl
      · split <;> rfl

/-- What is seen of a run does not depend on the cache. -/
theorem run_withCache {σ : Type} {observe : σ → Event → σ} (apart : codes.InjOn keccak)
    (fuel : Nat) (seen : σ) (knows : m.cache.Knows codes) (knows' : cache.Knows codes)
    (met : ∀ n params, (exec ctx n m).control = .enter params → params.code ∈ codes) :
    (run ctx observe fuel (m.withCache cache) seen).map (fun r => (r.1, r.2.1.overlay, r.2.2)) =
      (run ctx observe fuel m seen).map (fun r => (r.1, r.2.1.overlay, r.2.2)) := by
  induction fuel generalizing m cache seen with
  | zero => rfl
  | succ fuel ih =>
      have same_result : (m.withCache cache).result? = m.result? := rfl
      unfold run
      rw [same_result]
      cases m.result? with
      | some result => rfl
      | none =>
          have among : ∀ params, m.control = .enter params → params.code ∈ codes := met 0
          obtain ⟨cache', knew, same⟩ : ∃ cache' : JumpCache, cache'.Knows codes ∧
              step ctx (m.withCache cache) = ((next ctx m).withCache cache', told ctx m) :=
            step_withCache apart knows knows' among
          have known := (step_transition ctx m).knows apart knows among
          rw [same]
          exact ih _ known knew fun n params enters => met (n + 1) params enters

end Machine

/-! ## One transaction -/

/-- The code of the frames that are started when a transaction is executed. -/
def codesMet (ctx : Context) (cache : JumpCache) (params : Params) : Set Bytes :=
  {code | params.outermost = true ∧ ∃ n entered,
    (Machine.exec ctx n (.start params cache)).control = .enter entered ∧ entered.code = code}

/-- No frame is started after the end of a run. -/
theorem codesMet_of_result {ctx : Context} {cache : JumpCache} {params : Params} {n : Nat}
    {codes : Set Bytes} (ends : (Machine.exec ctx n (.start params cache)).result?.isSome)
    (met : ∀ j < n, ∀ entered ∈ (Machine.exec ctx j (.start params cache)).entering?,
      entered.code ∈ codes) : codesMet ctx cache params ⊆ codes := by
  obtain ⟨result, ended⟩ := Option.isSome_iff_exists.1 ends
  rintro _ ⟨-, j, entered, enters, rfl⟩
  refine met j (Nat.lt_of_not_le fun late => ?_) entered (Machine.entering?_eq_some.2 enters)
  obtain ⟨rest, rfl⟩ := Nat.exists_eq_add_of_le late
  rw [Machine.exec_add, Machine.exec_of_result ended] at enters
  cases (Machine.result?_eq_some.1 ended).1.symm.trans enters

section Executed

variable {σ : Type} {ctx : Context} {observe : σ → Event → σ} {cache : JumpCache} {params : Params}
  {seen : σ} {codes : Set Bytes}

/-- What is seen of a transaction is what is seen of its run. -/
theorem executeObserved_map :
    (executeObserved ctx observe cache params seen).map (fun r => (r.1, r.2.2)) =
      if params.outermost = true then
        match (Machine.run ctx (notePrices observe) (stepBound params.gas) (.start params cache)
            (seen, false)).map (fun r => (r.1, r.2.1.overlay, r.2.2)) with
        | some (result, overlay, seen, false) => .ok (⟨result, overlay.flatten⟩, seen)
        | some (_, _, _, true) => .error .unpriced
        | none => .error .unfinished
      else .error .invalidParams := by
  rw [executeObserved_eq]
  split
  · rcases Machine.run ctx (notePrices observe) (stepBound params.gas) (.start params cache)
      (seen, false) with _ | ⟨result, m, seen, _ | _⟩
    · rfl
    · rfl
    · rfl
  · rfl

/-- A transaction comes to the same outcome, or is refused for the same reason, and tells the same
events with any cache. -/
theorem executeObserved_cache (apart : codes.InjOn keccak) (knows : cache.Knows codes)
    (met : codesMet ctx cache params ⊆ codes) :
    (executeObserved ctx observe cache params seen).map (fun r => (r.1, r.2.2)) =
      (executeObserved ctx observe ∅ params seen).map fun r => (r.1, r.2.2) := by
  rw [executeObserved_map, executeObserved_map]
  by_cases outermost : params.outermost = true
  · rw [if_pos outermost, if_pos outermost]
    have fresh : Machine.start params ∅ = (Machine.start params cache).withCache ∅ := rfl
    rw [fresh, Machine.run_withCache apart _ _ knows (JumpCache.knows_empty codes)
      fun n entered enters => met ⟨outermost, n, entered, enters, rfl⟩]
  · rw [if_neg outermost, if_neg outermost]

/-- The cache that is handed back knows what it holds. -/
theorem knows_of_executeObserved {outcome : Outcome} {cache' : JumpCache} {seen' : σ}
    (apart : codes.InjOn keccak) (knows : cache.Knows codes)
    (met : codesMet ctx cache params ⊆ codes)
    (ran : executeObserved ctx observe cache params seen = .ok (outcome, cache', seen')) :
    cache'.Knows codes := by
  obtain ⟨outermost, n, -, -, rfl⟩ := executeObserved_ran ran
  exact (Machine.genuine_exec apart knows fun j _ entered enters =>
    met ⟨outermost, j, entered, enters, rfl⟩).2

end Executed

/-! ## Transactions one after the other -/

/-- The same prices, block and limits over another host. -/
def Context.over (ctx : Context) (host : Host) : Context := { ctx with host := host }

/-- A transaction and the host that it is executed for. -/
structure Job where
  host : Host
  params : Params

section Jobs

variable {σ : Type} (ctx : Context) (observe : σ → Event → σ) (seen : σ)

/-- What a transaction comes to, with what is seen of it, and the cache for the next one. -/
def executeNext (cache : JumpCache) (job : Job) : Except Refusal (Outcome × σ) × JumpCache :=
  match executeObserved (ctx.over job.host) observe cache job.params seen with
  | .ok (outcome, cache, seen) => (.ok (outcome, seen), cache)
  | .error refusal => (.error refusal, cache)

/-- What transactions come to that are executed one after the other, each with the cache that the
one before it has left. -/
def executeAll : JumpCache → List Job → List (Except Refusal (Outcome × σ))
  | _, [] => []
  | cache, job :: jobs =>
      let (outcome, cache) := executeNext ctx observe seen cache job
      outcome :: executeAll cache jobs

/-- The cache that they leave. -/
def cacheAfter (cache : JumpCache) (jobs : List Job) : JumpCache :=
  jobs.foldl (fun cache job => (executeNext ctx observe seen cache job).2) cache

/-- The code of the frames that they start. -/
def codesMetBy : JumpCache → List Job → Set Bytes
  | _, [] => ∅
  | cache, job :: jobs =>
      codesMet (ctx.over job.host) cache job.params ∪
        codesMetBy (executeNext ctx observe seen cache job).2 jobs

variable {ctx observe seen} {cache : JumpCache} {codes : Set Bytes}

/-- One of them starts frames with such code only. -/
theorem codesMet_subset (cache : JumpCache) (earlier : List Job) (job : Job) (later : List Job) :
    codesMet (ctx.over job.host) (cacheAfter ctx observe seen cache earlier) job.params ⊆
      codesMetBy ctx observe seen cache (earlier ++ job :: later) := by
  induction earlier generalizing cache with
  | nil => exact Set.subset_union_left
  | cons first rest ih => exact (ih _).trans Set.subset_union_right

theorem knows_executeNext (apart : codes.InjOn keccak) (knows : cache.Knows codes) {job : Job}
    (met : codesMet (ctx.over job.host) cache job.params ⊆ codes) :
    (executeNext ctx observe seen cache job).2.Knows codes := by
  unfold executeNext
  split
  · rename_i ran
    exact knows_of_executeObserved apart knows met ran
  · exact knows

/-- A transaction is not influenced by those before it. -/
theorem executeNext_eq (apart : codes.InjOn keccak) (knows : cache.Knows codes) {job : Job}
    (met : codesMet (ctx.over job.host) cache job.params ⊆ codes) :
    (executeNext ctx observe seen cache job).1 =
      (executeObserved (ctx.over job.host) observe ∅ job.params seen).map
        fun r => (r.1, r.2.2) := by
  rw [← executeObserved_cache apart knows met]
  unfold executeNext
  cases executeObserved (ctx.over job.host) observe cache job.params seen <;> rfl

theorem knows_cacheAfter (apart : codes.InjOn keccak) (knows : cache.Knows codes)
    {earlier later : List Job}
    (met : codesMetBy ctx observe seen cache (earlier ++ later) ⊆ codes) :
    (cacheAfter ctx observe seen cache earlier).Knows codes := by
  induction earlier generalizing cache with
  | nil => exact knows
  | cons job earlier ih =>
      obtain ⟨first, rest⟩ := Set.union_subset_iff.1 met
      exact ih (knows_executeNext apart knows first) rest

theorem executeAll_eq (apart : codes.InjOn keccak) (knows : cache.Knows codes) {jobs : List Job}
    (met : codesMetBy ctx observe seen cache jobs ⊆ codes) :
    executeAll ctx observe seen cache jobs = jobs.map fun job =>
      (executeObserved (ctx.over job.host) observe ∅ job.params seen).map
        fun r => (r.1, r.2.2) := by
  induction jobs generalizing cache with
  | nil => rfl
  | cons job jobs ih =>
      obtain ⟨first, rest⟩ := Set.union_subset_iff.1 met
      show (executeNext ctx observe seen cache job).1 ::
        executeAll ctx observe seen (executeNext ctx observe seen cache job).2 jobs = _
      rw [executeNext_eq apart knows first, ih (knows_executeNext apart knows first) rest,
        List.map_cons]

/-- The cache is not noticed.  Transactions that are executed one after the other, for whatever
hosts and with whatever code, come to the outcomes, are refused for the reasons and tell the events
that they would if each had a cache of its own, as long as no two pieces of code that are met have
the same digest.  At any time of each of them the cache holds the jump tables of code that was met,
under the digest of that code, and every open frame has the jump table of the code that it
executes. -/
theorem jump_cache_unnoticed (ctx : Context) (observe : σ → Event → σ) (seen : σ)
    (jobs : List Job) (apart : (codesMetBy ctx observe seen ∅ jobs).InjOn keccak) :
    (executeAll ctx observe seen ∅ jobs = jobs.map fun job =>
      (executeObserved (ctx.over job.host) observe ∅ job.params seen).map
        fun r => (r.1, r.2.2)) ∧
    ∀ earlier job later, jobs = earlier ++ job :: later → job.params.outermost = true →
      ∀ n m, m = Machine.exec (ctx.over job.host) n
          (.start job.params (cacheAfter ctx observe seen ∅ earlier)) →
        m.cache.Knows (codesMetBy ctx observe seen ∅ jobs) ∧
        (∀ code ∈ codesMetBy ctx observe seen ∅ jobs, ∀ table,
          m.cache[keccak code]? = some table → table = .ofCode code) ∧
        ∀ frame ∈ m.openFrames, frame.jumps = .ofCode frame.code.toList := by
  refine ⟨executeAll_eq apart (JumpCache.knows_empty _) subset_rfl, ?_⟩
  rintro earlier job later rfl outermost n _ rfl
  have knows := knows_cacheAfter apart (JumpCache.knows_empty _) (subset_refl
    (codesMetBy ctx observe seen ∅ (earlier ++ job :: later)))
  have met : ∀ j < n, ∀ entered, (Machine.exec (ctx.over job.host) j
      (.start job.params (cacheAfter ctx observe seen ∅ earlier))).control = .enter entered →
        entered.code ∈ codesMetBy ctx observe seen ∅ (earlier ++ job :: later) :=
    fun j _ entered enters =>
      codesMet_subset _ earlier job later ⟨outermost, j, entered, enters, rfl⟩
  obtain ⟨genuine, known⟩ := Machine.genuine_exec apart knows met
  refine ⟨known, fun code met table found => ?_, fun frame among => ?_⟩
  · obtain ⟨other, met_other, same, rfl⟩ := known _ _ found
    rw [apart met_other met same]
  · rw [genuine frame among, (Machine.sound_exec _ _ _ _ frame among).code, List.toList_toArray]

end Jobs

/-- Code that has a jump destination and nothing else. -/
def landing : Bytes := [0x5b]

/-- A transaction that calls the jump destination, and one for another host that runs it.  The
third one is refused. -/
def relay : List Job :=
  [⟨(Context.hosting 0 ⟨10⟩ landing).host, simpleCall dialling⟩,
    ⟨(Context.uniform 7).host, simpleCall landing⟩,
    ⟨(Context.uniform 0).host, { simpleCall landing with kind := .call .delegateCall }⟩]

/-- Remembers all events, the last one first. -/
def remember (events : List Event) (event : Event) : List Event := event :: events

theorem codesMetBy_relay :
    codesMetBy (.uniform 0) remember [] ∅ relay ⊆ {code | code ∈ [dialling, landing]} := by
  have first : ∀ j < 16, ∀ entered ∈
      (Machine.exec (.hosting 0 ⟨10⟩ landing) j (.start (simpleCall dialling) ∅)).entering?,
      entered.code ∈ [dialling, landing] := by
    decide +kernel
  have second : ∀ j < 4, ∀ entered ∈
      (Machine.exec (.uniform 7) j (.start (simpleCall landing)
        (cacheAfter (.uniform 0) remember [] ∅ (relay.take 1)))).entering?,
      entered.code ∈ [dialling, landing] := by
    decide +kernel
  refine Set.union_subset ?_ (Set.union_subset ?_ (Set.union_subset ?_ (Set.empty_subset _)))
  · exact codesMet_of_result (by decide +kernel) first
  · exact codesMet_of_result (by decide +kernel) second
  · rintro _ ⟨outermost, -⟩
    cases outermost

/-- The transactions come to what they would without each other; and the one that runs the jump
destination knows it, which it has from the cache that the first one has left. -/
theorem jump_cache_unnoticed_relay :
    executeAll (.uniform 0) remember [] ∅ relay = (relay.map fun job =>
      (executeObserved ((Context.uniform 0).over job.host) remember ∅ job.params []).map
        fun r => (r.1, r.2.2)) ∧
    ((executeAll (.uniform 0) remember [] ∅ relay).map fun outcome =>
      (outcome.map fun ran => (ran.1.result.isSuccess, ran.2.length)).toOption) =
      [some (true, 14), some (true, 3), none] ∧
    ∀ frame ∈ (Machine.exec (.uniform 7) 1 (.start (simpleCall landing)
        (cacheAfter (.uniform 0) remember [] ∅ (relay.take 1)))).openFrames,
      frame.jumps = .ofCode frame.code.toList := by
  have digests : ∀ code ∈ [dialling, landing], ∀ other ∈ [dialling, landing],
      keccak code = keccak other → code = other := by
    decide +kernel
  have apart : (codesMetBy (.uniform 0) remember [] ∅ relay).InjOn keccak :=
    fun code met other met' =>
      digests code (codesMetBy_relay met) other (codesMetBy_relay met')
  obtain ⟨same, tables⟩ := jump_cache_unnoticed (.uniform 0) remember [] relay apart
  refine ⟨same, by decide +kernel, ?_⟩
  exact (tables (relay.take 1) _ (relay.drop 2) rfl rfl 1 _ rfl).2.2

end EvmLedger.Vm
