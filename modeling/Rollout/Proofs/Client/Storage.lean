/-
A caching client over a cache in memory.

The client keeps the entries of a cache somewhere in a world.  What it does depends on the entries, on
the clock that they are read by and on the faults that reading and writing have at the moment, and it
leaves the rest of the world as it is.

* `Storage`, `Storage.client` — a place for entries in a world, and the caching client there;
* `Storage.Read`, `Storage.read_spec` — all that reading the cache can do;
* `Storage.Written`, `Storage.write_spec` — all that writing the cache can do;
* `Storage.Fetched`, `Storage.fetch_spec` — the ways to come by the variants of a subject.
-/
import Rollout.Proofs.Cache.Store
import Rollout.Proofs.Variant

namespace Rollout

/-- An operation on the cache: the fault that was injected, and the result. -/
inductive CacheCall
  | get (fault : Option Failure) (result : Except Failure Value)
  | set (fault : Option Failure) (result : Except Failure Unit)

/-- A place for the entries of a cache, with a clock and the faults of the moment.  The world may keep
what was done to the cache and what was logged, but not among the entries. -/
structure Storage (σ : Type) where
  slot : Slot σ CacheStore
  clock : σ → Rat
  getFault : σ → Option Failure
  setFault : σ → Option Failure
  note : CacheCall → σ → σ
  log : LogEvent → σ → σ
  get_note : ∀ call w, slot.get (note call w) = slot.get w := by intros; rfl
  get_log : ∀ event w, slot.get (log event w) = slot.get w := by intros; rfl

namespace CachingClient

variable {σ : Type} {c : CachingClient σ} {subject : Subject}

theorem evaluate_of_cacheKey {key : String} (hkey : cacheKey subject = .ok key)
    (flags : List String) (w : σ) :
    c.evaluate subject flags w
      = ((c.fetch key subject w).1.map (·.select flags), (c.fetch key subject w).2) := by
  rw [evaluate, hkey]
  rcases hfetch : c.fetch key subject w with ⟨failure | vs, w'⟩
  · simp only [hfetch, Except.map]
  · simp only [hfetch, Except.map]

theorem evaluate_of_keyless {f : Failure} (hf : cacheKey subject = .error f) (flags : List String)
    (w : σ) : c.evaluate subject flags w = (.error f, w) := by
  rw [evaluate, hf]

variable {key : String} {w w' : σ}

theorem fetch_of_hit {vs : Variants} (hread : c.read key w = (.ok (some vs), w')) :
    c.fetch key subject w = (.ok vs, w') := by
  rw [fetch, hread]

theorem fetch_of_miss (hread : c.read key w = (.ok none, w')) :
    c.fetch key subject w = c.refresh key subject w' := by
  rw [fetch, hread]

theorem refresh_of_error {failure : Failure}
    (hanswer : c.inner.evaluate subject [] w = (.error failure, w')) :
    c.refresh key subject w = (.error failure, w') := by
  rw [refresh, hanswer]

theorem refresh_of_ok {vs : Variants} {w'' : σ}
    (hanswer : c.inner.evaluate subject [] w = (.ok vs, w'))
    (hwrite : c.write key vs w' = (.ok (), w'')) :
    c.refresh key subject w = (.ok vs, w'') := by
  simp only [refresh, hanswer, hwrite]

end CachingClient

namespace Storage

variable {σ : Type} (s : Storage σ)

/-- An operation on the cache, kept.  It fails if a fault is injected into it. -/
def attempt {α : Type} (fault : Option Failure) (call : Except Failure α → CacheCall)
    (action : Action σ α) : Action σ α := fun w =>
  match fault with
  | some failure => (.error failure, s.note (call (.error failure)) w)
  | none =>
    let (result, w') := action w
    (result, s.note (call result) w')

/-- A cache in memory whose reads and writes are kept, and fail while a fault is injected. -/
def backend (cache : MemoryCache) : CacheBackend σ :=
  let backend := cache.backend s.slot s.clock
  { backend with
    get := fun key w => s.attempt (s.getFault w) (.get (s.getFault w)) (backend.get key) w
    set := fun key value ttl w =>
      s.attempt (s.setFault w) (.set (s.setFault w)) (backend.set key value ttl) w }

/-- The caching client in front of another one. -/
def client (cache : MemoryCache) (ttl : Option Int) (inner : AssignmentClient σ) :
    CachingClient σ where
  inner
  cache := s.backend cache
  ttl
  log := s.log

/-- What is observed of a world apart from the entries and from what is kept and logged. -/
structure Apart {β : Type} (observe : σ → β) : Prop where
  set : ∀ store w, observe (s.slot.set store w) = observe w
  note : ∀ call w, observe (s.note call w) = observe w
  log : ∀ event w, observe (s.log event w) = observe w

variable {s} {cache : MemoryCache} {ttl : Option Int} {inner : AssignmentClient σ} {key : String}
  {w : σ}

/-! ### Reading -/

theorem get_of_fault {fault : Failure} (h : s.getFault w = some fault) :
    (s.client cache ttl inner).cache.get key w
      = (.error fault, s.note (.get (some fault) (.error fault)) w) := by
  simp only [client, backend, attempt, h]

theorem get_of_healthy (h : s.getFault w = none) :
    (s.client cache ttl inner).cache.get key w
      = (.ok ((MemoryCache.get (s.clock w) key (s.slot.get w)).1.getD .null),
        s.note (.get none (.ok ((MemoryCache.get (s.clock w) key (s.slot.get w)).1.getD .null)))
          (s.slot.set (MemoryCache.get (s.clock w) key (s.slot.get w)).2 w)) := by
  simp only [client, backend, attempt, h]
  rfl

/-- Reading finds what the value decodes to, and leaves the entries as the cache does. -/
theorem read_of_get {value : Option Value} {store : CacheStore} {found : Option Variants}
    (hfault : s.getFault w = none)
    (hget : MemoryCache.get (s.clock w) key (s.slot.get w) = (value, store))
    (hdecode : CachingClient.decode (value.getD .null) = .ok found) :
    (s.client cache ttl inner).read key w
      = (.ok found, s.note (.get none (.ok (value.getD .null))) (s.slot.set store w)) := by
  rw [CachingClient.read, get_of_healthy hfault, hget]
  simp only [hdecode]

/-- All that reading the cache can do.  A fault is logged, or it has no text to log and reading fails.
Otherwise the value is found that the cache holds, or nothing if it does not decode. -/
inductive Read (s : Storage σ) (key : String) (w : σ) :
    Except Failure (Option Variants) × σ → Prop
  | silent (fault other : Failure) (injected : s.getFault w = some fault)
      (text : fault.message = .error other) :
      Read s key w (.error other, s.note (.get (some fault) (.error fault)) w)
  | failing (fault : Failure) (event : LogEvent) (injected : s.getFault w = some fault)
      (text : fault.HasText) :
      Read s key w (.ok none, s.log event (s.note (.get (some fault) (.error fault)) w))
  | decoded (value : Option Value) (store : CacheStore) (found : Option Variants)
      (healthy : s.getFault w = none)
      (get : MemoryCache.get (s.clock w) key (s.slot.get w) = (value, store))
      (decode : CachingClient.decode (value.getD .null) = .ok found) :
      Read s key w (.ok found, s.note (.get none (.ok (value.getD .null))) (s.slot.set store w))
  | corrupt (value : Option Value) (store : CacheStore) (event : LogEvent)
      (healthy : s.getFault w = none)
      (get : MemoryCache.get (s.clock w) key (s.slot.get w) = (value, store)) :
      Read s key w
        (.ok none, s.log event (s.note (.get none (.ok (value.getD .null))) (s.slot.set store w)))

theorem read_spec (key : String) (w : σ) : s.Read key w ((s.client cache ttl inner).read key w) := by
  rw [CachingClient.read]
  cases hfault : s.getFault w with
  | some fault =>
    simp only [get_of_fault hfault, CachingClient.warn]
    cases hmessage : fault.message with
    | ok message => exact .failing fault _ hfault ⟨message, hmessage⟩
    | error other => exact .silent fault other hfault hmessage
  | none =>
    simp only [get_of_healthy hfault]
    cases hdecode : CachingClient.decode
        ((MemoryCache.get (s.clock w) key (s.slot.get w)).1.getD .null) with
    | ok found => exact .decoded _ _ found hfault rfl hdecode
    | error failure =>
      obtain ⟨message, hmessage⟩ := Variants.hasText_of_decode hdecode
      simp only [CachingClient.warn, hmessage]
      exact .corrupt _ _ _ hfault rfl

namespace Read

variable {r : Except Failure (Option Variants) × σ} (h : s.Read key w r)
include h

/-- The entries stay as they are, or as the cache leaves them. -/
theorem entries : s.slot.get r.2 = s.slot.get w ∨
    s.slot.get r.2 = (MemoryCache.get (s.clock w) key (s.slot.get w)).2 := by
  cases h with
  | silent => exact .inl (s.get_note _ _)
  | failing => exact .inl ((s.get_log _ _).trans (s.get_note _ _))
  | decoded value store _ _ hget _ =>
    rw [s.get_note, s.slot.get_set, hget]
    exact .inr rfl
  | corrupt value store _ _ hget =>
    rw [s.get_log, s.get_note, s.slot.get_set, hget]
    exact .inr rfl

/-- Reading drops entries at most. -/
theorem subset : s.slot.get r.2 ⊆ s.slot.get w := by
  rcases h.entries with heq | heq
  · exact heq ▸ List.Subset.refl _
  · exact heq ▸ MemoryCache.get_subset _ _ _

/-- The keys of the entries stay distinct. -/
theorem distinct (hdistinct : MemoryCache.Distinct (s.slot.get w)) :
    MemoryCache.Distinct (s.slot.get r.2) := by
  rcases h.entries with heq | heq
  · exact heq ▸ hdistinct
  · exact heq ▸ hdistinct.get _ _

/-- The rest of the world stays as it is. -/
theorem frame {β : Type} {observe : σ → β} (hapart : s.Apart observe) : observe r.2 = observe w := by
  cases h <;> simp only [hapart.set, hapart.note, hapart.log]

/-- Variants are found only in an entry that has not expired. -/
theorem found {vs : Variants} (hfound : r.1 = .ok (some vs)) :
    ∃ e, (key, e) ∈ s.slot.get w ∧ MemoryCache.expired (s.clock w) e = false ∧
      CachingClient.decode e.value = .ok (some vs) := by
  cases h with
  | silent | failing | corrupt => cases hfound
  | decoded value store _ _ hget hdecode =>
    cases hfound
    cases value with
    | none => cases hdecode
    | some value =>
      obtain ⟨e, he, hlive, rfl⟩ := MemoryCache.get_mem (congrArg Prod.fst hget)
      exact ⟨e, he, hlive, hdecode⟩

/-- Reading fails only with a fault without a text. -/
theorem error_iff {other : Failure} :
    r.1 = .error other ↔ Failure.Silent (s.getFault w) other := by
  cases h with
  | silent fault _ hfault htext => simp [hfault, htext]
  | failing fault _ hfault htext => simp [hfault, htext.message_ne]
  | decoded _ _ _ hhealthy | corrupt _ _ _ hhealthy => simp [hhealthy]

end Read

/-! ### Writing -/

theorem set_of_fault {value : Value} {fault : Failure} (h : s.setFault w = some fault) :
    (s.client cache ttl inner).cache.set key value ttl w
      = (.error fault, s.note (.set (some fault) (.error fault)) w) := by
  simp only [client, backend, attempt, h]

theorem set_of_healthy {value : Value} (h : s.setFault w = none) :
    (s.client cache ttl inner).cache.set key value ttl w
      = match cache.set (s.clock w) key value ttl (s.slot.get w) with
        | .ok store => (.ok (), s.note (.set none (.ok ())) (s.slot.set store w))
        | .error failure => (.error failure, s.note (.set none (.error failure)) w) := by
  simp only [client, backend, attempt, h, MemoryCache.backend]
  cases cache.set (s.clock w) key value ttl (s.slot.get w) with
  | ok store => rfl
  | error failure => rfl

/-- Variants that can be reduced are written as the cache does. -/
theorem write_of_set {vs : Variants} {entries : Attributes} {store : CacheStore}
    (hfault : s.setFault w = none) (hdump : vs.dump = .ok entries)
    (hset : cache.set (s.clock w) key (.map entries) ttl (s.slot.get w) = .ok store) :
    (s.client cache ttl inner).write key vs w
      = (.ok (), s.note (.set none (.ok ())) (s.slot.set store w)) := by
  have httl : (s.client cache ttl inner).ttl = ttl := rfl
  simp only [CachingClient.write, hdump, httl, set_of_healthy hfault, hset]

/-- Variants that cannot be reduced are not written. -/
theorem write_of_undumped {vs : Variants} {failure : Failure} (hdump : vs.dump = .error failure) :
    ∃ event, (s.client cache ttl inner).write key vs w = (.ok (), s.log event w) := by
  obtain ⟨message, hmessage⟩ := Variants.hasText_of_dump hdump
  refine ⟨CachingClient.warning "variant_cache_write_failed" key message, ?_⟩
  simp only [CachingClient.write, hdump, CachingClient.warn, hmessage]
  rfl

/-- All that writing the cache can do.  Variants that cannot be reduced are not written, and neither are
those that the cache refuses.  A fault is logged, or it has no text to log and writing fails. -/
inductive Written (s : Storage σ) (cache : MemoryCache) (ttl : Option Int) (key : String)
    (vs : Variants) (w : σ) : Except Failure Unit × σ → Prop
  | undumped (failure : Failure) (event : LogEvent) (dump : vs.dump = .error failure) :
      Written s cache ttl key vs w (.ok (), s.log event w)
  | silent (entries : Attributes) (fault other : Failure) (dump : vs.dump = .ok entries)
      (injected : s.setFault w = some fault) (text : fault.message = .error other) :
      Written s cache ttl key vs w (.error other, s.note (.set (some fault) (.error fault)) w)
  | failing (entries : Attributes) (fault : Failure) (event : LogEvent)
      (dump : vs.dump = .ok entries) (injected : s.setFault w = some fault) (text : fault.HasText) :
      Written s cache ttl key vs w
        (.ok (), s.log event (s.note (.set (some fault) (.error fault)) w))
  | refused (entries : Attributes) (failure : Failure) (event : LogEvent)
      (dump : vs.dump = .ok entries) (healthy : s.setFault w = none)
      (set : cache.set (s.clock w) key (.map entries) ttl (s.slot.get w) = .error failure) :
      Written s cache ttl key vs w
        (.ok (), s.log event (s.note (.set none (.error failure)) w))
  | stored (entries : Attributes) (store : CacheStore) (dump : vs.dump = .ok entries)
      (healthy : s.setFault w = none)
      (set : cache.set (s.clock w) key (.map entries) ttl (s.slot.get w) = .ok store) :
      Written s cache ttl key vs w
        (.ok (), s.note (.set none (.ok ())) (s.slot.set store w))

theorem write_spec (key : String) (vs : Variants) (w : σ) :
    s.Written cache ttl key vs w ((s.client cache ttl inner).write key vs w) := by
  have httl : (s.client cache ttl inner).ttl = ttl := rfl
  -- The variants are reduced before the cache is asked, so no fault comes before that.
  cases hdump : vs.dump with
  | error failure =>
    obtain ⟨event, hwrite⟩ := @write_of_undumped σ s cache ttl inner key w vs failure hdump
    rw [hwrite]
    exact .undumped failure event hdump
  | ok entries =>
    simp only [CachingClient.write, hdump, httl]
    cases hfault : s.setFault w with
    | some fault =>
      simp only [set_of_fault hfault, CachingClient.warn]
      cases hmessage : fault.message with
      | ok message => exact .failing entries fault _ hdump hfault ⟨message, hmessage⟩
      | error other => exact .silent entries fault other hdump hfault hmessage
    | none =>
      rw [set_of_healthy hfault]
      cases hset : cache.set (s.clock w) key (.map entries) ttl (s.slot.get w) with
      | ok store => exact .stored entries store hdump hfault hset
      | error failure =>
        obtain ⟨message, hmessage⟩ := MemoryCache.hasText_of_set hset
        simp only [CachingClient.warn, hmessage]
        exact .refused entries failure _ hdump hfault hset

namespace Written

variable {vs : Variants} {r : Except Failure Unit × σ} (h : s.Written cache ttl key vs w r)
include h

/-- Writing adds one entry at most, which holds the variants. -/
theorem mem {x : String × CacheEntry} (hx : x ∈ s.slot.get r.2) : x ∈ s.slot.get w ∨
    x.1 = key ∧ cache.expiry (s.clock w) ttl = .ok x.2.expiresAt ∧
      ∃ entries, vs.dump = .ok entries ∧ x.2.value = .map entries := by
  cases h with
  | undumped => exact .inl (by rwa [s.get_log] at hx)
  | silent => exact .inl (by rwa [s.get_note] at hx)
  | failing | refused => exact .inl (by rwa [s.get_log, s.get_note] at hx)
  | stored entries store hdump _ hset =>
    rw [s.get_note, s.slot.get_set] at hx
    obtain ⟨expiresAt, hexpiry, hsubset⟩ := MemoryCache.set_subset hset
    -- What the cache holds now is the new entry and some of those from before.
    rcases List.mem_cons.mp (hsubset hx) with rfl | hx
    · exact .inr ⟨rfl, hexpiry, entries, hdump, rfl⟩
    · exact .inl hx

/-- The rest of the world stays as it is. -/
theorem frame {β : Type} {observe : σ → β} (hapart : s.Apart observe) : observe r.2 = observe w := by
  cases h <;> simp only [hapart.set, hapart.note, hapart.log]

/-- Writing fails only with a fault without a text, if the variants can be reduced. -/
theorem error_iff {other : Failure} : r.1 = .error other ↔
    (∃ entries, vs.dump = .ok entries) ∧ Failure.Silent (s.setFault w) other := by
  cases h with
  | undumped _ _ hdump => simp [hdump]
  | silent _ _ _ hdump hfault htext => simp [hdump, hfault, htext]
  | failing _ _ _ hdump hfault htext => simp [hdump, hfault, htext.message_ne]
  | refused _ _ _ hdump hhealthy | stored _ _ hdump hhealthy => simp [hdump, hhealthy]

end Written

/-! ### Coming by variants -/

/-- The ways to come by the variants of a subject, or to fail: they are found in the cache, or the inner
client is asked for all flags and what it answers is written. -/
inductive Fetched (s : Storage σ) (cache : MemoryCache) (ttl : Option Int)
    (inner : AssignmentClient σ) (key : String) (subject : Subject) (w : σ) :
    Except Failure Variants × σ → Prop
  | unread (other : Failure) (w₁ : σ) (read : s.Read key w (.error other, w₁)) :
      Fetched s cache ttl inner key subject w (.error other, w₁)
  | hit (vs : Variants) (w₁ : σ) (read : s.Read key w (.ok (some vs), w₁)) :
      Fetched s cache ttl inner key subject w (.ok vs, w₁)
  | raised (failure : Failure) (w₁ w₂ : σ) (read : s.Read key w (.ok none, w₁))
      (answer : inner.evaluate subject [] w₁ = (.error failure, w₂)) :
      Fetched s cache ttl inner key subject w (.error failure, w₂)
  | unwritten (vs : Variants) (other : Failure) (w₁ w₂ w₃ : σ) (read : s.Read key w (.ok none, w₁))
      (answer : inner.evaluate subject [] w₁ = (.ok vs, w₂))
      (write : s.Written cache ttl key vs w₂ (.error other, w₃)) :
      Fetched s cache ttl inner key subject w (.error other, w₃)
  | miss (vs : Variants) (w₁ w₂ w₃ : σ) (read : s.Read key w (.ok none, w₁))
      (answer : inner.evaluate subject [] w₁ = (.ok vs, w₂))
      (write : s.Written cache ttl key vs w₂ (.ok (), w₃)) :
      Fetched s cache ttl inner key subject w (.ok vs, w₃)

theorem fetch_spec (key : String) (subject : Subject) (w : σ) :
    s.Fetched cache ttl inner key subject w ((s.client cache ttl inner).fetch key subject w) := by
  have hread := @read_spec σ s cache ttl inner key w
  rw [CachingClient.fetch]
  -- Reading fails, finds nothing, or finds variants.
  rcases hresult : (s.client cache ttl inner).read key w with ⟨other | (- | vs), w₁⟩
  · rw [hresult] at hread
    exact .unread other w₁ hread
  · rw [hresult] at hread
    simp only [CachingClient.refresh]
    rcases hanswer : (s.client cache ttl inner).inner.evaluate subject [] w₁ with ⟨failure | vs, w₂⟩
    · exact .raised failure w₁ w₂ hread hanswer
    · have hwrite := @write_spec σ s cache ttl inner key vs w₂
      rcases hwritten : (s.client cache ttl inner).write key vs w₂ with ⟨other | ⟨⟩, w₃⟩
      · rw [hwritten] at hwrite
        simp only [hwritten]
        exact .unwritten vs other w₁ w₂ w₃ hread hanswer hwrite
      · rw [hwritten] at hwrite
        simp only [hwritten]
        exact .miss vs w₁ w₂ w₃ hread hanswer hwrite
  · rw [hresult] at hread
    exact .hit vs w₁ hread

/-- What neither the cache nor the inner client touches stays as it is. -/
theorem Fetched.frame {subject : Subject} {r : Except Failure Variants × σ}
    (h : s.Fetched cache ttl inner key subject w r) {β : Type} {observe : σ → β}
    (hapart : s.Apart observe) (hinner : ∀ w, observe (inner.evaluate subject [] w).2 = observe w) :
    observe r.2 = observe w := by
  cases h with
  | unread _ _ hread | hit _ _ hread => exact hread.frame hapart
  | raised _ w₁ _ hread hanswer =>
    have hasked := hinner w₁
    rw [hanswer] at hasked
    exact hasked.trans (hread.frame hapart)
  | unwritten _ _ w₁ _ _ hread hanswer hwrite | miss _ w₁ _ _ hread hanswer hwrite =>
    have hasked := hinner w₁
    rw [hanswer] at hasked
    exact (hwrite.frame hapart).trans (hasked.trans (hread.frame hapart))

end Storage

end Rollout
