/-
A caching client and all that its service is asked.

A caller puts queries to a client one after another.  Between them time goes by, and for each the service
has another answer, which may be a failure, and takes another time for it.  Nothing but the client
touches the cache.  What the service was asked, when and for what, is kept with its answer, and so are
the failures of operations on the cache.

* `Query`, `Exchange` — what a caller asks for, and the world in which it does;
* `Exchange.serve`, `Exchange.run` — what one query and what many of them do to the world;
* `Exchange.write_eq`, `fetch_of_error`, `fetch_of_ok` — what the client does when nothing is found;
* `Exchange.run_faults` — the cache fails only if the lifetime of entries cannot be measured.
-/
import Rollout.Proofs.Client.Deployment
import Rollout.Proofs.Client.Failures

namespace Rollout

/-! ### The world -/

/-- A query to the client, with the time that goes by before it, and with what the service would
answer meanwhile and how long it would take. -/
structure Query where
  wait : ℚ≥0
  subject : Subject
  flags : List String
  answers : Answering
  latency : ℚ≥0

/-- What the service was asked, the time of its answer, and the answer. -/
structure Fetch where
  time : Rat
  subject : Subject
  flags : List String
  result : Except Failure Variants

/-- A cache, a clock, a service, and what has happened. -/
structure Exchange where
  store : CacheStore
  clock : Rat
  answers : Answering
  latency : ℚ≥0
  fetches : List Fetch
  faults : List Failure

namespace Exchange

/-- The world before anything has happened in it. -/
def opened (clock : Rat) : Exchange := ⟨[], clock, fun _ _ => .ok [], 0, [], []⟩

/-- The entries of the cache as a part of the world. -/
def storeSlot : Slot Exchange CacheStore where
  get := Exchange.store
  set store w := { w with store }

/-- The world after an operation on the cache, whose failure is kept. -/
def note : CacheCall → Exchange → Exchange
  | .get _ (.error failure), w | .set _ (.error failure), w =>
    { w with faults := w.faults ++ [failure] }
  | _, w => w

/-- The place of the cache in the world, in which no faults are injected. -/
def storage : Storage Exchange where
  slot := storeSlot
  clock := Exchange.clock
  getFault _ := none
  setFault _ := none
  note := note
  log _ w := w
  get_note := by rintro (⟨_, _ | _⟩ | ⟨_, _ | _⟩) w <;> rfl

/-- The service: it takes its time, and answers as it does at the moment. -/
def service : AssignmentClient Exchange where
  start w := (.ok (), w)
  stop w := (.ok (), w)
  evaluate subject flags w :=
    let time := w.clock + w.latency
    let result := w.answers subject flags
    (result, { w with clock := time, fetches := w.fetches ++ [⟨time, subject, flags, result⟩] })

/-- The caching client in front of the service. -/
def cachingClient (cache : MemoryCache) (ttl : Option Int) : CachingClient Exchange :=
  storage.client cache ttl service

/-- The world when a query comes. -/
def await (q : Query) (w : Exchange) : Exchange :=
  { w with clock := w.clock + q.wait, answers := q.answers, latency := q.latency }

/-- What the client returns to a query, and the world after it. -/
def serve (cache : MemoryCache) (ttl : Option Int) (q : Query) : Action Exchange Variants := fun w =>
  (cachingClient cache ttl).evaluate q.subject q.flags (w.await q)

/-- The world after all queries. -/
def run (cache : MemoryCache) (ttl : Option Int) (queries : List Query) (w : Exchange) : Exchange :=
  queries.foldl (fun w q => (serve cache ttl q w).2) w

variable {cache : MemoryCache} {ttl : Option Int} {w : Exchange} {key : String}

theorem run_concat (queries : List Query) (q : Query) (w : Exchange) :
    run cache ttl (queries ++ [q]) w = (serve cache ttl q (run cache ttl queries w)).2 := by
  rw [run, List.foldl_append]
  rfl

/-! ### What the client does -/

theorem clock_le (w : Exchange) (seconds : ℚ≥0) : w.clock ≤ w.clock + seconds :=
  le_add_of_nonneg_right seconds.2

/-- The world after the service was asked for all flags of a subject. -/
def asked (subject : Subject) (w : Exchange) : Exchange :=
  { w with
    clock := w.clock + w.latency
    fetches := w.fetches ++ [⟨w.clock + w.latency, subject, [], w.answers subject []⟩] }

theorem evaluate_service (subject : Subject) (w : Exchange) :
    (cachingClient cache ttl).inner.evaluate subject [] w
      = (w.answers subject [], w.asked subject) := rfl

/-- Writing never fails for the caller. -/
theorem write_eq (key : String) (vs : Variants) (w : Exchange) :
    (cachingClient cache ttl).write key vs w
      = (.ok (), ((cachingClient cache ttl).write key vs w).2) := by
  have hwrite : storage.Written cache ttl key vs w ((cachingClient cache ttl).write key vs w) :=
    Storage.write_spec key vs w
  rcases hresult : (cachingClient cache ttl).write key vs w with ⟨other | ⟨⟩, w'⟩
  · rw [hresult] at hwrite
    obtain ⟨-, _, hfault, -⟩ := hwrite.error_iff.mp rfl
    cases hfault
  · rfl

/-- If nothing is found, the service is asked.  If it fails, that is the end of it. -/
theorem fetch_of_error {subject : Subject} {w' : Exchange} {failure : Failure}
    (hread : (cachingClient cache ttl).read key w = (.ok none, w'))
    (hanswer : w'.answers subject [] = .error failure) :
    (cachingClient cache ttl).fetch key subject w = (.error failure, w'.asked subject) := by
  rw [CachingClient.fetch_of_miss hread]
  refine CachingClient.refresh_of_error ?_
  rw [evaluate_service, hanswer]

/-- If nothing is found, the service is asked.  What it delivers is written. -/
theorem fetch_of_ok {subject : Subject} {w' : Exchange} {vs : Variants}
    (hread : (cachingClient cache ttl).read key w = (.ok none, w'))
    (hanswer : w'.answers subject [] = .ok vs) :
    (cachingClient cache ttl).fetch key subject w
      = (.ok vs, ((cachingClient cache ttl).write key vs (w'.asked subject)).2) := by
  rw [CachingClient.fetch_of_miss hread]
  refine CachingClient.refresh_of_ok ?_ (write_eq key vs _)
  rw [evaluate_service, hanswer]

/-- The cache asks for nothing and takes no time. -/
theorem apart : storage.Apart fun w => (w.fetches, w.clock) :=
  ⟨fun _ _ => rfl, by rintro (⟨_, _ | _⟩ | ⟨_, _ | _⟩) w <;> rfl, fun _ _ => rfl⟩

/-! ### Failures of the cache -/

/-- A cache in memory never fails to be read. -/
theorem read_faults {r : Except Failure (Option Variants) × Exchange} (h : storage.Read key w r) :
    r.2.faults = w.faults := by
  cases h with
  | silent _ _ hfault | failing _ _ hfault => cases hfault
  | decoded | corrupt => rfl

/-- Only a write of what was delivered can fail. -/
theorem serve_cases (q : Query) (w : Exchange) :
    (serve cache ttl q w).2.faults = w.faults ∨ ∃ key vs w', w'.faults = w.faults ∧
      storage.Written cache ttl key vs w' (.ok (), (serve cache ttl q w).2) := by
  rw [serve]
  cases hkey : cacheKey q.subject with
  | error failure =>
    rw [CachingClient.evaluate_of_keyless hkey]
    exact .inl rfl
  | ok key =>
    rw [CachingClient.evaluate_of_cacheKey hkey]
    have hfetch : storage.Fetched cache ttl service key q.subject (w.await q)
        ((cachingClient cache ttl).fetch key q.subject (w.await q)) :=
      Storage.fetch_spec key q.subject (w.await q)
    generalize (cachingClient cache ttl).fetch key q.subject (w.await q) = r at hfetch ⊢
    -- The cache is written in one way out of five only.
    cases hfetch with
    | unread other _ hread | hit vs _ hread => exact .inl (read_faults hread)
    | raised failure w₁ w₂ hread hanswer =>
      obtain rfl : w₁.asked q.subject = w₂ := congrArg Prod.snd hanswer
      exact .inl (read_faults hread)
    | unwritten vs other w₁ w₂ _ _ _ hwrite =>
      obtain ⟨-, _, hfault, -⟩ := hwrite.error_iff.mp rfl
      cases hfault
    | miss vs w₁ w₂ _ hread hanswer hwrite =>
      obtain rfl : w₁.asked q.subject = w₂ := congrArg Prod.snd hanswer
      exact .inr ⟨key, vs, w₁.asked q.subject, read_faults hread, hwrite⟩

/-- The failures that were kept stay. -/
theorem faults_prefix_serve (q : Query) (w : Exchange) :
    w.faults <+: (serve cache ttl q w).2.faults := by
  rcases @serve_cases cache ttl q w with hsame | ⟨key, vs, w', hsame, hwrite⟩
  · rw [hsame]
  · rw [← hsame]
    generalize (serve cache ttl q w).2 = w'' at hwrite ⊢
    cases hwrite with
    | undumped | stored => exact List.prefix_rfl
    | failing _ _ _ _ hfault => cases hfault
    | refused => exact List.prefix_append _ _

theorem serve_faults (hroom : 1 ≤ cache.maxSize) (hmeasurable : cache.Measurable ttl) (q : Query)
    (w : Exchange) : (serve cache ttl q w).2.faults = w.faults := by
  rcases @serve_cases cache ttl q w with hsame | ⟨key, vs, w', hsame, hwrite⟩
  · exact hsame
  · rw [← hsame]
    generalize (serve cache ttl q w).2 = w'' at hwrite ⊢
    cases hwrite with
    | undumped | stored => rfl
    | failing _ _ _ _ hfault => cases hfault
    | refused entries failure _ _ _ hset =>
      -- A cache with room for an entry refuses only a lifetime that it cannot measure.
      obtain ⟨store, hstore⟩ := (@MemoryCache.exists_set_iff cache w'.clock key (.map entries) ttl
        w'.store hroom).mpr hmeasurable
      cases hstore.symm.trans hset

/-- A cache with room never fails, if it can measure the lifetime of its entries. -/
theorem run_faults (hroom : 1 ≤ cache.maxSize) (hmeasurable : cache.Measurable ttl)
    (queries : List Query) (w : Exchange) : (run cache ttl queries w).faults = w.faults := by
  induction queries using List.reverseRecOn with
  | nil => rfl
  | append_singleton queries q ih => rw [run_concat, serve_faults hroom hmeasurable, ih]

end Exchange

end Rollout
