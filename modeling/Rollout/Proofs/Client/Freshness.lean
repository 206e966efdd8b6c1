/-
Variants are not served past their lifetime.

A provider caches the variants of its service for the time that its settings say.  The service may
change its answers at any moment, the clock moves on, entries are evicted, and the cache and the
service fail and recover.  At every moment each entry holds the variants of a delivery that was made
for the subject under the entry's key, and ends when the delivery has reached its lifetime.

* `Happening`, `Deployment.run` — what can happen around a client;
* `Delivery.Fills`, `Delivery.Answers` — what is stored, and what is served, of a delivery;
* `Deployment.Sound`, `Deployment.Sound.step` — the invariant, and that everything preserves it;
* `served_within_lifetime` — what is served was delivered within the lifetime.
-/
import Rollout.Proofs.Client.Deployment
import Rollout.Proofs.Client.Transparency
import Rollout.Proofs.Settings

namespace Rollout

/-! ### Deliveries -/

namespace Delivery

/-- The variants that were delivered, or those that are read back from their reduction. -/
def Holds (d : Delivery) (vs : Variants) : Prop :=
  vs = d.variants ∨ ∃ entries, d.variants.dump = .ok entries ∧
    CachingClient.decode (.map entries) = .ok (some vs)

/-- An entry that holds the variants of a delivery, and ends a lifetime after it. -/
structure Fills (ttl : Int) (d : Delivery) (x : String × CacheEntry) : Prop where
  key : cacheKey d.subject = .ok x.1
  value : ∃ entries, d.variants.dump = .ok entries ∧ x.2.value = .map entries
  expiresAt : x.2.expiresAt = some (d.time + ttl)

/-- Variants that can be served now for the subjects under a key. -/
structure Current (ttl : Int) (d : Delivery) (key : String) (now : Rat) (vs : Variants) : Prop where
  key : cacheKey d.subject = .ok key
  begun : d.time ≤ now
  age : now - d.time ≤ ttl
  holds : d.Holds vs

/-- What was served is what was delivered for the subject, no longer than a lifetime ago. -/
structure Answers (ttl : Int) (d : Delivery) (s : Serving) : Prop where
  fingerprint : fingerprint d.subject = fingerprint s.subject
  alike : d.subject.Plain → s.subject.Plain → d.subject.Alike s.subject
  begun : d.time ≤ s.time
  age : s.time - d.time ≤ ttl
  variants : ∃ vs, d.Holds vs ∧ s.variants = vs.select s.flags

end Delivery

/-- Subjects under one key have one fingerprint, if their fingerprints do not collide. -/
theorem Subject.Apart.fingerprint_eq {a b : Subject} (h : Subject.Apart a b) {key : String}
    (ha : cacheKey a = .ok key) (hb : cacheKey b = .ok key) : fingerprint a = fingerprint b := by
  obtain ⟨s, hs, -⟩ := map_eq_ok_iff.mp ha
  obtain ⟨t, ht, -⟩ := map_eq_ok_iff.mp hb
  exact fingerprint_eq_of_cacheKey_eq hs ht (h s t hs ht) (ha.trans hb.symm)

/-! ### What can happen -/

/-- What can happen to a client, its cache and its service. -/
inductive Happening
  /-- The client is asked for flags of a subject. -/
  | call (subject : Subject) (flags : List String)
  /-- Time goes by. -/
  | wait (seconds : ℚ≥0)
  /-- An entry is evicted. -/
  | evict (key : String)
  /-- Faults begin or cease to be injected into the reads of the cache. -/
  | failGet (fault : Option Failure)
  /-- Faults begin or cease to be injected into the writes of the cache. -/
  | failSet (fault : Option Failure)
  /-- The service changes its answers, which may be failures, and the time that it takes. -/
  | turn (answers : Answering) (latency : ℚ≥0)

/-- The subject that the client is asked for. -/
def Happening.subject? : Happening → Option Subject
  | call subject _ => some subject
  | _ => none

namespace Deployment

/-- What the world becomes.  The variants that the client returns are kept with the time at which
it returns them. -/
def step (client : AssignmentClient Deployment) (w : Deployment) :
    Happening → Deployment
  | .call subject flags =>
    match client.evaluate subject flags w with
    | (.ok variants, w') =>
      { w' with servings := w'.servings ++ [⟨w'.clock, subject, flags, variants⟩] }
    | (.error _, w') => w'
  | .wait seconds => { w with clock := w.clock + seconds }
  | .evict key => { w with store := MemoryCache.delete key w.store }
  | .failGet fault => { w with getFault := fault }
  | .failSet fault => { w with setFault := fault }
  | .turn answers latency => { w with answers, latency }

/-- The world after all that happened. -/
def run (client : AssignmentClient Deployment) (happenings : List Happening) (w : Deployment) :
    Deployment :=
  happenings.foldl (step client) w

/-! ### The invariant -/

/-- What holds at every moment of a run with calls for some subjects. -/
structure Sound (o : RemoteOptions) (subjects : List Subject) (w : Deployment) : Prop where
  /-- Deliveries were made before now, for the subjects that were asked for. -/
  deliveries : ∀ d ∈ w.deliveries, d.time ≤ w.clock ∧ d.subject ∈ subjects
  /-- Every entry holds what was delivered, and ends a lifetime after that. -/
  entries : ∀ x ∈ w.store, ∃ d ∈ w.deliveries, d.Fills o.cacheTtl x
  /-- Operations on the cache succeed, but for the faults that were injected and for writes whose
  lifetime cannot be measured. -/
  calls : ∀ c ∈ w.cacheCalls, Expected o c
  /-- Everything that was served had been delivered for the subject, within the lifetime. -/
  servings : ∀ s ∈ w.servings, ∃ d ∈ w.deliveries, d.Answers o.cacheTtl s

variable {o : RemoteOptions} {subjects : List Subject} {w : Deployment}

theorem sound_opened (clock : Rat) : Sound o subjects (opened clock) where
  deliveries _ h := by cases h
  entries _ h := by cases h
  calls _ h := by cases h
  servings _ h := by cases h

namespace Sound

theorem mono (h : Sound o subjects w) {more : List Subject} (hmore : subjects ⊆ more) :
    Sound o more w :=
  { h with deliveries := fun d hd => ⟨(h.deliveries d hd).1, hmore (h.deliveries d hd).2⟩ }

theorem revise (h : Sound o subjects w) {store : CacheStore} {call : CacheCall}
    (hstore : ∀ x ∈ store, ∃ d ∈ w.deliveries, d.Fills o.cacheTtl x) (hcall : Expected o call) :
    Sound o subjects (w.revise store call) where
  deliveries := h.deliveries
  entries := hstore
  calls c hc := by
    rcases List.mem_append.mp hc with hc | hc
    · exact h.calls c hc
    · rw [List.mem_singleton.mp hc]
      exact hcall
  servings := h.servings

theorem wait (h : Sound o subjects w) (seconds : ℚ≥0) :
    Sound o subjects { w with clock := w.clock + seconds } where
  deliveries d hd :=
    ⟨(h.deliveries d hd).1.trans (le_add_of_nonneg_right seconds.2), (h.deliveries d hd).2⟩
  entries := h.entries
  calls := h.calls
  servings := h.servings

theorem later (h : Sound o subjects w) : Sound o subjects w.later := h.wait w.latency

theorem deliver (h : Sound o subjects w) {subject : Subject} (hsubject : subject ∈ subjects)
    (vs : Variants) : Sound o subjects (w.deliver subject vs) where
  deliveries d hd := by
    rcases List.mem_append.mp hd with hd | hd
    · exact h.deliveries d hd
    · rw [List.mem_singleton.mp hd]
      exact ⟨le_refl _, hsubject⟩
  entries x hx := by
    obtain ⟨d, hd, hfills⟩ := h.entries x hx
    exact ⟨d, List.mem_append_left _ hd, hfills⟩
  calls := h.calls
  servings s hs := by
    obtain ⟨d, hd, hanswers⟩ := h.servings s hs
    exact ⟨d, List.mem_append_left _ hd, hanswers⟩

/-- A read leaves a sound world, and what it finds can be served now. -/
theorem read (h : Sound o subjects w) {key : String}
    {r : Except Failure (Option Variants) × Deployment} (hread : storage.Read key w r) :
    ∃ store call, r.2 = w.revise store call ∧ store ⊆ w.store ∧
      Sound o subjects (w.revise store call) ∧
      ∀ vs, r.1 = .ok (some vs) → ∃ d ∈ w.deliveries, d.Current o.cacheTtl key w.clock vs := by
  obtain ⟨store, call, hrevise, hsubset, hcall⟩ := @read_cases o w key r hread
  refine ⟨store, call, hrevise, hsubset, h.revise (fun x hx => h.entries x (hsubset hx)) hcall, ?_⟩
  intro vs hvs
  obtain ⟨e, he, hlive, hdecode⟩ := hread.found hvs
  obtain ⟨d, hd, hkey, ⟨entries, hdump, hvalue⟩, hexpires⟩ := h.entries (key, e) he
  rw [hvalue] at hdecode
  refine ⟨d, hd, hkey, (h.deliveries d hd).1, ?_, .inr ⟨entries, hdump, hdecode⟩⟩
  -- The entry has not expired, and it ends a lifetime after the delivery.
  have hlimit : w.clock ≤ d.time + o.cacheTtl := MemoryCache.le_of_not_expired hexpires hlive
  linarith

/-- Writing what was delivered just now leaves a sound world. -/
theorem write (hpositive : 0 < o.cacheTtl ∧ 0 < o.cacheMaxSize) (h : Sound o subjects w)
    {subject : Subject} {vs : Variants} (hd : ⟨w.clock, subject, vs⟩ ∈ w.deliveries)
    {key : String} (hkey : cacheKey subject = .ok key) {r : Except Failure Unit × Deployment}
    (hwrite : storage.Written ⟨o.cacheMaxSize, some o.cacheTtl⟩ (some o.cacheTtl) key vs w r) :
    Sound o subjects r.2 ∧ r.2.deliveries = w.deliveries ∧ r.2.clock = w.clock := by
  rcases write_cases hpositive hwrite with hsame | ⟨store, call, hrevise, hcall, hstore⟩
  · rw [hsame]
    exact ⟨h, rfl, rfl⟩
  · rw [hrevise]
    refine ⟨h.revise (fun x hx => ?_) hcall, rfl, rfl⟩
    rcases hstore x hx with hx | ⟨hx, hexpires, hvalue⟩
    · exact h.entries x hx
    · exact ⟨_, hd, by rw [hx]; exact hkey, hvalue, hexpires⟩

/-- What the service delivers now is written, which leaves a sound world, and can be served at once. -/
theorem delivered (hpositive : 0 < o.cacheTtl ∧ 0 < o.cacheMaxSize) (h : Sound o subjects w)
    {subject : Subject} (hsubject : subject ∈ subjects) {key : String}
    (hkey : cacheKey subject = .ok key) {vs : Variants} {r : Except Failure Unit × Deployment}
    (hwrite : storage.Written ⟨o.cacheMaxSize, some o.cacheTtl⟩ (some o.cacheTtl) key vs
      (w.later.deliver subject vs) r) :
    Sound o subjects r.2 ∧ r.2.deliveries ≠ w.deliveries ∧
      ∃ d ∈ r.2.deliveries, d.Current o.cacheTtl key r.2.clock vs := by
  have hd : ⟨w.later.clock, subject, vs⟩ ∈ (w.later.deliver subject vs).deliveries :=
    List.mem_append_right _ List.mem_cons_self
  obtain ⟨hsound, hdeliveries, hclock⟩ :=
    (h.later.deliver hsubject vs).write hpositive hd hkey hwrite
  have httl : (0 : Rat) < o.cacheTtl := by exact_mod_cast hpositive.1
  refine ⟨hsound, ?_, _, by rw [hdeliveries]; exact hd, hkey, by rw [hclock]; exact le_refl _, ?_,
    .inl rfl⟩
  · rw [hdeliveries]
    simp [Deployment.deliver, Deployment.later]
  · rw [hclock]
    exact (sub_self _).trans_le httl.le

/-- Coming by variants leaves a sound world, and the variants can be served now.  Entries change
only if the service has delivered. -/
theorem fetch (hpositive : 0 < o.cacheTtl ∧ 0 < o.cacheMaxSize) (h : Sound o subjects w)
    {subject : Subject} (hsubject : subject ∈ subjects) {key : String}
    (hkey : cacheKey subject = .ok key) {r : Except Failure Variants × Deployment}
    (hfetch : storage.Fetched ⟨o.cacheMaxSize, some o.cacheTtl⟩ (some o.cacheTtl) service key subject
      w r) :
    Sound o subjects r.2 ∧
    (∀ vs, r.1 = .ok vs → ∃ d ∈ r.2.deliveries, d.Current o.cacheTtl key r.2.clock vs) ∧
    (r.2.deliveries = w.deliveries → r.2.store ⊆ w.store) := by
  cases hfetch with
  | unread other w₁ hread =>
    obtain ⟨store, call, rfl, hsubset, hsound, -⟩ := h.read hread
    exact ⟨hsound, fun vs hvs => (by cases hvs), fun _ => hsubset⟩
  | hit vs w₁ hread =>
    obtain ⟨store, call, rfl, hsubset, hsound, hfound⟩ := h.read hread
    refine ⟨hsound, fun other hother => ?_, fun _ => hsubset⟩
    cases hother
    exact hfound vs rfl
  | raised failure w₁ w₂ hread hanswer =>
    obtain ⟨store, call, rfl, hsubset, hsound, -⟩ := h.read hread
    obtain rfl := of_service_error hanswer
    exact ⟨hsound.later, fun vs hvs => (by cases hvs), fun _ => hsubset⟩
  | unwritten vs other w₁ w₂ w₃ hread hanswer hwrite =>
    obtain ⟨store, call, rfl, -, hsound, -⟩ := h.read hread
    obtain rfl := of_service_ok hanswer
    obtain ⟨hwritten, hmore, -⟩ := hsound.delivered hpositive hsubject hkey hwrite
    exact ⟨hwritten, fun vs hvs => (by cases hvs), fun hsame => absurd hsame hmore⟩
  | miss vs w₁ w₂ w₃ hread hanswer hwrite =>
    obtain ⟨store, call, rfl, -, hsound, -⟩ := h.read hread
    obtain rfl := of_service_ok hanswer
    obtain ⟨hwritten, hmore, hcurrent⟩ := hsound.delivered hpositive hsubject hkey hwrite
    refine ⟨hwritten, fun other hother => ?_, fun hsame => absurd hsame hmore⟩
    cases hother
    exact hcurrent

/-- A call leaves a sound world, what it serves included. -/
theorem call (hpositive : 0 < o.cacheTtl ∧ 0 < o.cacheMaxSize) (h : Sound o subjects w)
    (hapart : ∀ a ∈ subjects, ∀ b ∈ subjects, Subject.Apart a b) {subject : Subject}
    (hsubject : subject ∈ subjects) (flags : List String) :
    Sound o subjects (w.step (cachingClient o).client (.call subject flags)) := by
  simp only [Deployment.step, CachingClient.client]
  cases hkey : cacheKey subject with
  | error failure =>
    rw [CachingClient.evaluate_of_keyless hkey]
    exact h
  | ok key =>
    rw [CachingClient.evaluate_of_cacheKey hkey]
    obtain ⟨hsound, hcurrent, -⟩ := h.fetch hpositive hsubject hkey (Storage.fetch_spec key subject w)
    rw [← cachingClient] at hsound hcurrent
    rcases hfetch : (cachingClient o).fetch key subject w with ⟨failure | vs, w'⟩
    · rw [hfetch] at hsound
      exact hsound
    · rw [hfetch] at hsound hcurrent
      refine { hsound with servings := fun s hs => ?_ }
      rcases List.mem_append.mp hs with hs | hs
      · exact hsound.servings s hs
      · rw [List.mem_singleton.mp hs]
        obtain ⟨d, hd, hcurrent⟩ := hcurrent vs rfl
        -- The delivery was made for this very subject, as the two share a key.
        have hfingerprint := (hapart d.subject (hsound.deliveries d hd).2 subject
          hsubject).fingerprint_eq hcurrent.key hkey
        obtain ⟨text, htext, -⟩ := map_eq_ok_iff.mp hkey
        have halike : d.subject.Plain → subject.Plain → d.subject.Alike subject := fun ha hb =>
          (fingerprint_eq_iff ha (shallow_of_fingerprint (hfingerprint.trans htext)) hb
            (shallow_of_fingerprint htext)).mp hfingerprint
        exact ⟨d, hd, hfingerprint, halike, hcurrent.begun, hcurrent.age, vs, hcurrent.holds, rfl⟩

/-- A call for which the service delivers nothing leaves entries as they were, or drops them. -/
theorem call_subset (hpositive : 0 < o.cacheTtl ∧ 0 < o.cacheMaxSize) (h : Sound o subjects w)
    (subject : Subject) (flags : List String)
    (hsame : (w.step (cachingClient o).client (.call subject flags)).deliveries = w.deliveries) :
    (w.step (cachingClient o).client (.call subject flags)).store ⊆ w.store := by
  simp only [Deployment.step, CachingClient.client] at hsame ⊢
  cases hkey : cacheKey subject with
  | error failure =>
    rw [CachingClient.evaluate_of_keyless hkey]
    exact List.Subset.refl _
  | ok key =>
    rw [CachingClient.evaluate_of_cacheKey hkey] at hsame ⊢
    obtain ⟨-, -, hsubset⟩ := (h.mono (List.subset_cons_self subject subjects)).fetch hpositive
      List.mem_cons_self hkey (Storage.fetch_spec key subject w)
    rw [← cachingClient] at hsubset
    rcases hfetch : (cachingClient o).fetch key subject w with ⟨failure | vs, w'⟩
    · rw [hfetch] at hsame hsubset
      exact hsubset hsame
    · rw [hfetch] at hsame hsubset
      exact hsubset hsame

/-- Whatever happens leaves a sound world. -/
theorem step (hpositive : 0 < o.cacheTtl ∧ 0 < o.cacheMaxSize) (h : Sound o subjects w)
    (hapart : ∀ a ∈ subjects, ∀ b ∈ subjects, Subject.Apart a b) (happening : Happening)
    (hsubject : ∀ a ∈ happening.subject?, a ∈ subjects) :
    Sound o subjects (w.step (cachingClient o).client happening) := by
  cases happening with
  | call subject flags => exact h.call hpositive hapart (hsubject subject rfl) flags
  | wait seconds => exact h.wait seconds
  | evict key =>
    exact { h with
      entries := fun x hx => h.entries x ((Assoc.erase_sublist key w.store).subset hx) }
  | failGet fault => exact { h with }
  | failSet fault => exact { h with }
  | turn answers latency => exact { h with }

/-- However much happens, the world stays sound. -/
theorem run (hpositive : 0 < o.cacheTtl ∧ 0 < o.cacheMaxSize) (h : Sound o subjects w)
    (hapart : ∀ a ∈ subjects, ∀ b ∈ subjects, Subject.Apart a b) (happenings : List Happening)
    (hsubjects : ∀ a ∈ happenings.filterMap Happening.subject?, a ∈ subjects) :
    Sound o subjects (w.run (cachingClient o).client happenings) := by
  induction happenings generalizing w with
  | nil => exact h
  | cons happening happenings ih =>
    have hfirst : ∀ a ∈ happening.subject?, a ∈ subjects := fun a ha =>
      hsubjects a (List.mem_filterMap.mpr ⟨happening, List.mem_cons_self, ha⟩)
    refine ih (h.step hpositive hapart happening hfirst) fun a ha => ?_
    obtain ⟨other, hother, ha⟩ := List.mem_filterMap.mp ha
    exact hsubjects a (List.mem_filterMap.mpr ⟨other, List.mem_cons_of_mem _ hother, ha⟩)

end Sound

end Deployment

open Deployment

/-- **Nothing is served past its lifetime.**  Take a provider that caches, made for any settings that
are accepted, and let anything happen around its client.  Each operation on the cache into which no
fault is injected succeeds, unless it is a write and the lifetime is beyond the range of the clock.
Each entry ends a lifetime after a delivery of the service, whose variants it holds; and all that is
served is what the service delivered for the subject, no longer than a lifetime ago.  A call for
which the service delivers nothing leaves no entry with another end. -/
theorem served_within_lifetime {entries : Attributes} {settings : Settings} {o : RemoteOptions}
    {clock : Rat} {p : Provider Deployment} {s : Provider.State} (happenings : List Happening)
    (haccepted : Settings.ofMap entries = .ok settings) (hcaching : settings.caching = some o)
    (hcreated : (Provider.create settings parts (opened clock)).1 = .ok (p, s))
    (hapart : ∀ a ∈ happenings.filterMap Happening.subject?,
      ∀ b ∈ happenings.filterMap Happening.subject?, Subject.Apart a b) :
    let w := (opened clock).run p.client happenings
    Sound o (happenings.filterMap Happening.subject?) w ∧
    ∀ subject flags, (w.step p.client (.call subject flags)).deliveries = w.deliveries →
      (w.step p.client (.call subject flags)).store ⊆ w.store := by
  intro w
  have hpositive := Settings.caching_positive haccepted hcaching
  have hclient := client_of_create hcaching hcreated
  have hsound : Sound o (happenings.filterMap Happening.subject?) w := by
    simp only [w, hclient]
    exact (sound_opened clock).run hpositive hapart happenings fun _ h => h
  refine ⟨hsound, ?_⟩
  rw [hclient]
  exact hsound.call_subset hpositive

/-- A service changes its answer while the client is asked three times, the last time after the
lifetime of the first answer and while the cache fails to be written. -/
theorem served_within_lifetime_changed :
    let o : RemoteOptions := ⟨.ofInt 10, true, 30, 2⟩
    let settings : Settings := ⟨"key", none, some o, [], "INFO", "json"⟩
    let entries : Attributes := [(.text "deployment_key", .text "key"), (.text "remote", .map [
      (.text "cache_ttl_seconds", .int 30), (.text "cache_max_size", .text "2")])]
    let user : Subject := Record.ofProperties "u1" []
    let happenings : List Happening := [
      .turn (fun _ _ => .ok [("seats", ⟨"few", none, .int 3, []⟩)]) 2, .call user ["seats"],
      .wait 25, .turn (fun _ _ => .ok [("seats", ⟨"many", none, .int 9, []⟩)]) 1,
      .call user ["seats"], .wait 6, .failSet (some (.thrown .connection [.text "down"])),
      .call user []]
    let p : Provider Deployment :=
      ⟨settings, Provider.cached settings parts service, none, none, none, parts.log⟩
    let w := (opened 0).run p.client happenings
    Settings.ofMap entries = .ok settings ∧ settings.caching = some o ∧
      (Provider.create settings parts (opened 0)).1 = .ok (p, ⟨.notReady, .standard⟩) ∧
      Sound o [user, user, user] w ∧
      ∀ subject flags, (w.step p.client (.call subject flags)).deliveries = w.deliveries →
        (w.step p.client (.call subject flags)).store ⊆ w.store := by
  intro o settings entries user happenings p w
  have haccepted : Settings.ofMap entries = .ok settings := rfl
  have hcreated : (Provider.create settings parts (opened 0)).1
      = .ok (p, ⟨.notReady, .standard⟩) := rfl
  refine ⟨haccepted, rfl, hcreated, ?_⟩
  refine served_within_lifetime happenings haccepted rfl hcreated fun a ha b hb => ?_
  have hsame : ∀ x ∈ [user, user, user], x = user := by simp
  rw [hsame a ha, hsame b hb]
  exact Subject.apart_self user

/-- A lifetime beyond the range of the clock is accepted, and no write ever succeeds with it. -/
theorem lifetime_beyond_clock_accepted :
    let o : RemoteOptions := ⟨.ofInt 10, true, 10 ^ 200 * 10 ^ 200, 10000⟩
    let settings : Settings := ⟨"key", none, some o, [], "INFO", "json"⟩
    Settings.ofMap [(.text "deployment_key", .text "key"),
      (.text "remote", .map [(.text "cache_ttl_seconds", .int (10 ^ 200 * 10 ^ 200))])]
        = .ok settings ∧
    settings.caching = some o ∧
    ∀ key value w, w.setFault = none →
      ((cachingClient o).cache.set key value (some o.cacheTtl) w).1 = .error .floatOverflow := by
  intro o settings
  refine ⟨rfl, rfl, fun key value w hfault => ?_⟩
  have httl : 0 < o.cacheTtl := by decide
  have hunmeasurable : MemoryCache.measurable o.cacheTtl = false := by decide +kernel
  rw [cachingClient, Storage.set_of_healthy hfault, MemoryCache.set, MemoryCache.expiry_of_pos httl,
    hunmeasurable]
  rfl

end Rollout
