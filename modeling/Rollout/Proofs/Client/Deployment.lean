/-
A provider's caching client, its own cache and a service whose answers change.

The service takes its time and answers each time as it likes; what it delivered, and when, is
remembered, and so is every operation on the cache with the fault that was injected into it.  The
client is the one that a provider makes of the service when its settings ask for caching.

* `Deployment`, `Deployment.parts` — the world, and the parts that a provider is made of in it;
* `Deployment.client_of_create` — the client of a provider that caches;
* `Deployment.Expected` — operations on the cache that go as they should;
* `Deployment.read_cases`, `write_cases` — what reading and writing the cache leave behind.
-/
import Mathlib.Algebra.Field.Rat
import Rollout.Proofs.Client.Storage
import Rollout.Provider.Basic

namespace Rollout

/-! ### The world -/

/-- Variants that the service delivered for a subject. -/
structure Delivery where
  time : Rat
  subject : Subject
  variants : Variants

/-- Variants that the client returned to its caller. -/
structure Serving where
  time : Rat
  subject : Subject
  flags : List String
  variants : Variants

/-- The answer of a service to a subject and the flags asked for. -/
abbrev Answering := Subject → List String → Except Failure Variants

/-- A cache, a clock, the faults of the moment, a service, and what has happened. -/
structure Deployment where
  store : CacheStore
  clock : Rat
  getFault : Option Failure
  setFault : Option Failure
  answers : Answering
  latency : ℚ≥0
  deliveries : List Delivery
  cacheCalls : List CacheCall
  servings : List Serving

namespace Deployment

/-- The world before anything has happened in it. -/
def opened (clock : Rat) : Deployment := ⟨[], clock, none, none, fun _ _ => .ok [], 0, [], [], []⟩

/-- The entries of the cache as a part of the world. -/
def storeSlot : Slot Deployment CacheStore where
  get := Deployment.store
  set store w := { w with store }

/-- The world after one more operation on the cache. -/
def record (call : CacheCall) (w : Deployment) : Deployment :=
  { w with cacheCalls := w.cacheCalls ++ [call] }

/-- The place of the cache in the world. -/
def storage : Storage Deployment where
  slot := storeSlot
  clock := Deployment.clock
  getFault := Deployment.getFault
  setFault := Deployment.setFault
  note := record
  log _ w := w

/-- The world after the service took its time. -/
def later (w : Deployment) : Deployment := { w with clock := w.clock + w.latency }

/-- The world after the service delivered variants. -/
def deliver (subject : Subject) (variants : Variants) (w : Deployment) : Deployment :=
  { w with deliveries := w.deliveries ++ [⟨w.clock, subject, variants⟩] }

/-- The service: it takes its time, and answers as it does at the moment. -/
def service : AssignmentClient Deployment where
  start w := (.ok (), w)
  stop w := (.ok (), w)
  evaluate subject flags w :=
    match w.answers subject flags with
    | .error failure => (.error failure, w.later)
    | .ok variants => (.ok variants, w.later.deliver subject variants)

theorem of_service_error {subject : Subject} {flags : List String} {failure : Failure}
    {w w' : Deployment} (h : service.evaluate subject flags w = (.error failure, w')) :
    w' = w.later := by
  simp only [service] at h
  split at h
  · cases h
    rfl
  · cases h

theorem of_service_ok {subject : Subject} {flags : List String} {variants : Variants}
    {w w' : Deployment} (h : service.evaluate subject flags w = (.ok variants, w')) :
    w' = w.later.deliver subject variants := by
  simp only [service] at h
  split at h
  · cases h
  · cases h
    rfl

/-- The parts of a provider with a cache of its own. -/
def parts : ProviderParts Deployment where
  client := some service
  factory := none
  cache := none
  ownCache := storage.backend
  tracker := none
  subjectHook := none
  occurrenceHook := none
  log _ w := w

/-- The caching client for the options of the service. -/
def cachingClient (o : RemoteOptions) : CachingClient Deployment :=
  storage.client ⟨o.cacheMaxSize, some o.cacheTtl⟩ (some o.cacheTtl) service

/-- A provider whose settings ask for caching asks its service through the caching client. -/
theorem client_of_create {settings : Settings} {o : RemoteOptions} {p : Provider Deployment}
    {s : Provider.State} {w : Deployment} (hcaching : settings.caching = some o)
    (h : (Provider.create settings parts w).1 = .ok (p, s)) :
    p.client = (cachingClient o).client := by
  unfold Provider.create at h
  split at h
  · cases h
  · rename_i make aliases hprepare
    have hmake : make settings w = (.ok service, w) := by
      unfold Provider.prepare at hprepare
      split at hprepare
      · cases hprepare
      · split at hprepare
        · rename_i hsource _
          cases hsource
          cases hprepare
          rfl
        · cases hprepare
        · cases hprepare
    rw [hmake] at h
    cases h
    simp only [Provider.cached, hcaching]
    rfl

/-! ### Reading and writing the cache -/

variable {o : RemoteOptions} {w : Deployment} {key : String}

/-- What is kept of an operation on the cache is as it should be: the fault that was injected, or
else success, but for a write whose lifetime is beyond the range of the clock. -/
def Expected (o : RemoteOptions) : CacheCall → Prop
  | .get none result => ∃ value, result = .ok value
  | .get (some failure) result => result = .error failure
  | .set none result => result = .ok () ↔ MemoryCache.measurable o.cacheTtl = true
  | .set (some failure) result => result = .error failure

/-- Other entries, after one more operation on the cache. -/
def revise (store : CacheStore) (call : CacheCall) (w : Deployment) : Deployment :=
  { w with store }.record call

/-- Reading the cache is as expected and drops entries at most. -/
theorem read_cases {r : Except Failure (Option Variants) × Deployment} (h : storage.Read key w r) :
    ∃ store call, r.2 = w.revise store call ∧ store ⊆ w.store ∧ Expected o call := by
  have hsubset := h.subset
  cases h with
  | silent fault _ _ _ | failing fault _ _ _ => exact ⟨w.store, _, rfl, List.Subset.refl _, rfl⟩
  | decoded value store found _ _ _ | corrupt value store _ _ _ =>
    exact ⟨store, _, rfl, hsubset, _, rfl⟩

/-- Writing the cache is as expected if it comes to that, and adds one entry at most, which holds the
variants and lives from now on as long as the options say. -/
theorem write_cases (hpositive : 0 < o.cacheTtl ∧ 0 < o.cacheMaxSize) {vs : Variants}
    {r : Except Failure Unit × Deployment}
    (h : storage.Written ⟨o.cacheMaxSize, some o.cacheTtl⟩ (some o.cacheTtl) key vs w r) :
    r.2 = w ∨ ∃ store call, r.2 = w.revise store call ∧ Expected o call ∧
      ∀ x ∈ store, x ∈ w.store ∨ x.1 = key ∧ x.2.expiresAt = some (w.clock + o.cacheTtl) ∧
        ∃ entries, vs.dump = .ok entries ∧ x.2.value = .map entries := by
  obtain ⟨httl, hsize⟩ := hpositive
  have hmem := @h.mem
  have hmeasurable : ∀ entries : Attributes,
      (∃ store, MemoryCache.set ⟨o.cacheMaxSize, some o.cacheTtl⟩ w.clock key (.map entries)
        (some o.cacheTtl) w.store = .ok store) ↔ MemoryCache.measurable o.cacheTtl = true :=
    fun entries => (@MemoryCache.exists_set_iff ⟨o.cacheMaxSize, some o.cacheTtl⟩ w.clock key _ _ _
      hsize).trans (MemoryCache.measurable_of_pos httl)
  cases h with
  | undumped => exact .inl rfl
  | silent _ fault | failing _ fault => exact .inr ⟨w.store, _, rfl, rfl, fun x hx => .inl hx⟩
  -- The cache has room, so a refusal tells of the lifetime.
  | refused entries failure _ _ _ hset =>
    refine .inr ⟨w.store, _, rfl, ?_, fun x hx => .inl hx⟩
    rw [Expected, ← hmeasurable entries]
    simp only [reduceCtorEq, false_iff]
    rintro ⟨store, hstore⟩
    cases hstore.symm.trans hset
  | stored entries store hdump _ hset =>
    have hfinite := (hmeasurable entries).mp ⟨store, hset⟩
    refine .inr ⟨store, _, rfl, iff_of_true rfl hfinite, fun x hx => ?_⟩
    rcases hmem hx with hx | ⟨hx, hexpiry, hvalue⟩
    · exact .inl hx
    · rw [MemoryCache.expiry_of_pos httl, if_pos hfinite, Except.ok.injEq] at hexpiry
      exact .inr ⟨hx, hexpiry.symm, hvalue⟩

end Deployment

end Rollout
