/-
A miss and the hit after it.

A miss returns the variants as the service gave them and writes them to the cache.  Asked again
before the entry expires, the client returns what it reads there: the reductions of the variants.

* `World.fetch_of_miss`, `World.fetch_of_hit` — a miss writes what the next call hits;
* `hit_agrees_iff_survives` — a variant evaluates alike for the miss and the hit exactly when it
  survives being reduced.
-/
import Rollout.Proofs.Client.World
import Rollout.Proofs.Fingerprint
import Rollout.Proofs.Reduction

namespace Rollout

namespace World

variable {variants : Subject → Variants} {cache : MemoryCache} {ttl : Option Int}
  {key : String} {subject : Subject} {w : World}

/-- Neither the cache nor the service fails. -/
structure Healthy (w : World) : Prop where
  get : w.getFault = none
  set : w.setFault = none
  inner : w.innerFault = none

theorem Healthy.of_keeps {w' : World} (h : w.Healthy) (hkeeps : Keeps w w') : w'.Healthy :=
  ⟨hkeeps.getFault.trans h.get, hkeeps.setFault.trans h.set, hkeeps.innerFault.trans h.inner⟩

/-- The world some time later. -/
def later (seconds : Rat) (w : World) : World := { w with clock := w.clock + seconds }

/-- A miss asks the service, and leaves an entry with the reduced variants. -/
theorem fetch_of_miss (h : w.Healthy) (hdistinct : MemoryCache.Distinct w.store)
    (hroom : 1 ≤ cache.maxSize)
    (hmiss : ((cachingClient variants cache ttl).read key w).1 = .ok none) {entries : Attributes}
    (hdump : (variants subject).dump = .ok entries) {expiresAt : Option Rat}
    (hexpiry : cache.expiry w.clock ttl = .ok expiresAt) :
    ∃ w', (cachingClient variants cache ttl).fetch key subject w = (.ok (variants subject), w') ∧
      w'.Healthy ∧ w'.clock = w.clock ∧ w'.requests = w.requests ++ [⟨subject, none⟩] ∧
      Assoc.find? key w'.store = some ⟨.map entries, expiresAt⟩ := by
  have hspec : storage.Read key w ((cachingClient variants cache ttl).read key w) :=
    Storage.read_spec key w
  rcases hread : (cachingClient variants cache ttl).read key w with ⟨found, w₁⟩
  rw [hread] at hmiss hspec
  obtain rfl : found = .ok none := hmiss
  -- Reading may have dropped the entry under the key, but keeps the rest of the world.
  have hkeeps : Keeps w w₁ := keeps_of_rest (hspec.frame apart_rest)
  have h₁ := h.of_keeps hkeeps
  have hexpiry₁ : cache.expiry (w₁.asked subject).clock ttl = .ok expiresAt := by
    change cache.expiry w₁.clock ttl = _
    rw [hkeeps.clock, hexpiry]
  obtain ⟨store, hset, hfind⟩ := MemoryCache.exists_set hroom (hspec.distinct hdistinct) hexpiry₁ key
    (.map entries)
  have hwrite : (cachingClient variants cache ttl).write key (variants subject) (w₁.asked subject)
      = (.ok (), { w₁.asked subject with store }) :=
    Storage.write_of_set (w := w₁.asked subject) h₁.set hdump hset
  have hanswer : (cachingClient variants cache ttl).inner.evaluate subject [] w₁
      = (.ok (variants subject), w₁.asked subject) := by
    rw [cachingClient, Storage.client, service_eq, h₁.inner]
    rfl
  refine ⟨{ w₁.asked subject with store }, ?_, ⟨h₁.get, h₁.set, h₁.inner⟩, hkeeps.clock, ?_, hfind⟩
  · simp only [CachingClient.fetch, hread, CachingClient.refresh, hanswer, hwrite]
  · change w₁.requests ++ [⟨subject, w₁.innerFault⟩] = _
    rw [hkeeps.requests, h₁.inner]

/-- A live entry answers without the service. -/
theorem fetch_of_hit (h : w.Healthy) {e : CacheEntry} (hfind : Assoc.find? key w.store = some e)
    (hlive : MemoryCache.expired w.clock e = false) {vs : Variants}
    (hdecode : CachingClient.decode e.value = .ok (some vs)) :
    ∃ w', (cachingClient variants cache ttl).fetch key subject w = (.ok vs, w') ∧
      w'.requests = w.requests := by
  have hread : (cachingClient variants cache ttl).read key w
      = (.ok (some vs), { w with store := MemoryCache.touch key e w.store }) :=
    Storage.read_of_get h.get (MemoryCache.get_of_find? hfind hlive) hdecode
  refine ⟨{ w with store := MemoryCache.touch key e w.store }, ?_, rfl⟩
  rw [CachingClient.fetch, hread]

end World

/-- **A cache hit evaluates like the miss that filled it exactly when the variant survives.**  A
client that misses asks the service, answers with its variants and writes them.  Asked again before
the entry expires, it answers without the service.  A flag that both answers are asked for has a
variant in each, and for every type and default the two evaluate alike exactly when the type keeps
the payload. -/
theorem hit_agrees_iff_survives (variants : Subject → Variants) (cache : MemoryCache)
    (ttl : Option Int) {w : World} (hhealthy : w.Healthy)
    (hdistinct : MemoryCache.Distinct w.store) (hroom : 1 ≤ cache.maxSize) {subject : Subject}
    {key : String} (hkey : cacheKey subject = .ok key)
    (hmiss : ((World.cachingClient variants cache ttl).read key w).1 = .ok none)
    {entries : Attributes} (hdump : (variants subject).dump = .ok entries)
    {expiresAt : Option Rat} (hexpiry : cache.expiry w.clock ttl = .ok expiresAt)
    {seconds : Rat} (hwithin : ∀ limit ∈ expiresAt, w.clock + seconds ≤ limit)
    (flags flags' : List String) :
    ∃ w₁ second w₂,
      (World.cachingClient variants cache ttl).evaluate subject flags w
        = (.ok ((variants subject).select flags), w₁) ∧
      w₁.requests = w.requests ++ [⟨subject, none⟩] ∧
      (World.cachingClient variants cache ttl).evaluate subject flags' (w₁.later seconds)
        = (.ok second, w₂) ∧
      w₂.requests = w₁.requests ∧
      ∀ flag v, Assoc.find? flag ((variants subject).select flags) = some v →
        flags' = [] ∨ flag ∈ flags' → ∃ v', Assoc.find? flag second = some v' ∧
          ((∃ p, Payload.ofValue v.payload = .ok p) → ∀ type default,
            SameResult (evaluateVariant type v default) (evaluateVariant type v' default)
              ↔ v.Survives type) := by
  obtain ⟨w₁, hfetch, hhealthy₁, hclock, hrequests, hfind⟩ :=
    @World.fetch_of_miss variants cache ttl key subject w hhealthy hdistinct hroom hmiss _ hdump _
      hexpiry
  obtain ⟨reduced, hreduces, hdecode⟩ := Variants.exists_decode_dump hdump
  have hlive : MemoryCache.expired (w₁.later seconds).clock ⟨.map entries, expiresAt⟩ = false := by
    change MemoryCache.expired (w₁.clock + seconds) _ = false
    rw [hclock]
    cases expiresAt with
    | none => rfl
    | some limit => exact decide_eq_false (not_lt.mpr (hwithin limit rfl))
  -- The entry has not expired, so the second call finds it.
  have hlater : (w₁.later seconds).Healthy := ⟨hhealthy₁.get, hhealthy₁.set, hhealthy₁.inner⟩
  obtain ⟨w₂, hfetch', hrequests'⟩ :=
    @World.fetch_of_hit variants cache ttl key subject (w₁.later seconds) hlater _ hfind hlive _
      hdecode
  refine ⟨w₁, reduced.select flags', w₂, ?_, hrequests, ?_, hrequests', fun flag v hv hflag => ?_⟩
  · rw [CachingClient.evaluate, hkey]
    simp only [hfetch]
  · rw [CachingClient.evaluate, hkey]
    simp only [hfetch']
  · rw [Variants.find?_select] at hv
    rw [Variants.find?_select, if_pos hflag]
    split at hv
    · rcases hreduces.find? flag with ⟨hnone, -⟩ | ⟨v₀, v', hv₀, hv', hvv'⟩
      · rw [hnone] at hv
        cases hv
      · rw [hv₀, Option.some.injEq] at hv
        subst hv
        exact ⟨v', hv', fun haccepted type default =>
          sameResult_iff_survives hvv' haccepted type default⟩
    · cases hv

/-- The decimal 2.9 evaluates alike as a float, and no longer as an integer. -/
theorem hit_agrees_iff_survives_decimal :
    let v : Variant := ⟨"on", none, .decimal (.finite false 29 (-1)), []⟩
    let user : Subject := Record.ofProperties "u1" []
    let client := World.cachingClient (fun _ => [("seats", v)]) .standard none
    ∃ first w₁ second w₂ v',
      client.evaluate user ["seats"] .fresh = (.ok first, w₁) ∧
      Assoc.find? "seats" first = some v ∧
      client.evaluate user ["seats"] (w₁.later 30) = (.ok second, w₂) ∧
      Assoc.find? "seats" second = some v' ∧
      SameResult (evaluateVariant .float v (.int 7)) (evaluateVariant .float v' (.int 7)) ∧
      ¬ SameResult (evaluateVariant .integer v (.int 7)) (evaluateVariant .integer v' (.int 7)) := by
  intro v user client
  have hempty : (Value.map []).Plain :=
    .map [] ⟨fun e he => (by cases he), List.nodup_nil⟩ fun e he => (by cases he)
  obtain ⟨key, hkey⟩ := exists_cacheKey (Record.ofProperties_plain "u1" hempty)
    ((Record.ofProperties_shallow_iff "u1").mpr fun e he => by cases he)
  obtain ⟨entries, hdump⟩ : ∃ entries, Variants.dump [("seats", v)] = .ok entries := ⟨_, rfl⟩
  have hexpiry : MemoryCache.standard.expiry 0 none = .ok (some (0 + 60)) := by
    have hmeasurable : MemoryCache.measurable 60 = true := by decide
    simp [MemoryCache.expiry, MemoryCache.standard, hmeasurable]
  have hwithin : ∀ limit ∈ some (0 + 60 : Rat), World.fresh.clock + 30 ≤ limit := by
    intro limit hlimit
    cases hlimit
    norm_num [World.fresh]
  obtain ⟨w₁, second, w₂, hfirst, -, hsecond, -, hagree⟩ :=
    hit_agrees_iff_survives (fun _ => [("seats", v)]) .standard none (w := .fresh)
      ⟨rfl, rfl, rfl⟩ List.nodup_nil (by decide) hkey rfl hdump hexpiry hwithin
      ["seats"] ["seats"]
  obtain ⟨v', hv', hiff⟩ := hagree "seats" v rfl (.inr List.mem_cons_self)
  refine ⟨_, w₁, second, w₂, v', hfirst, rfl, hsecond, hv', ?_, ?_⟩
  · rw [hiff ⟨_, rfl⟩]
    exact .inr rfl
  · rw [hiff ⟨_, rfl⟩]
    rintro (hoff | ⟨hzero, -⟩)
    · exact absurd hoff (by decide)
    · exact absurd hzero (by decide)

end Rollout
