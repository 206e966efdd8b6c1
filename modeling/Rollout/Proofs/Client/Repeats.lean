/-
A cache saves the repeated fetches, and no others.

As long as the cache has room for all subjects, nothing is evicted.  Under the key of a subject stands
then the entry of the last fetch that delivered for it, unless that has reached its lifetime; so a
query is answered from the cache exactly when variants were fetched for its subject no longer than a
lifetime ago.  A fetch that fails leaves no entry, and the next query tries again.

* `Fetch.Delivered`, `Fetch.Latest` — variants that were fetched for a subject, and the last of them;
* `Exchange.Sound` — the invariant: what stands under each key;
* `Sound.served` — the ways in which a query is answered;
* `Sound.serve`, `sound_run` — a query preserves the invariant, and so do many;
* `caching_saves_repeats` — which queries reach the service, and what the others are answered.
-/
import Mathlib.Data.List.Perm.Subperm
import Rollout.Proofs.Client.Exchange
import Rollout.Proofs.Client.Freshness
import Rollout.Proofs.Sequence

namespace Rollout

/-- A query for a plain subject, and only plain variants in answers, all of so few levels that the
subject has a key and the variants can be stored. -/
structure Query.Plain (q : Query) : Prop where
  subject : q.subject.Plain
  shallow : q.subject.Shallow
  answers : ∀ subject flags vs, q.answers subject flags = .ok vs → vs.Plain ∧ vs.Shallow

/-- Queries for plain subjects whose fingerprints do not collide, and for no more of them than a cache
has room for. -/
structure Query.Manageable (cache : MemoryCache) (queries : List Query) : Prop where
  plain : ∀ q ∈ queries, q.Plain
  apart : ∀ q ∈ queries, ∀ r ∈ queries, Subject.Apart q.subject r.subject
  few : ∃ subjects ⊆ queries.map Query.subject, (subjects.length : Int) ≤ cache.maxSize ∧
    ∀ q ∈ queries, ∃ a ∈ subjects, a.Alike q.subject

/-! ### Fetches -/

namespace Fetch

/-- Variants were fetched for a subject. -/
def Delivered (subject : Subject) (f : Fetch) : Prop :=
  f.subject.Alike subject ∧ ∃ vs, f.result = .ok vs

/-- Variants were fetched for a subject with a key. -/
def Under (key : String) (f : Fetch) : Prop :=
  cacheKey f.subject = .ok key ∧ ∃ vs, f.result = .ok vs

/-- The last fetch of variants for subjects with a key. -/
def Latest (key : String) (fetches : List Fetch) (f : Fetch) : Prop :=
  Lasts (fun g => g = f ∧ g.Under key) (¬ ·.Under key) fetches

/-- An entry that holds what was fetched, and ends a lifetime after that. -/
structure Fills (seconds : Int) (f : Fetch) (e : CacheEntry) : Prop where
  value : ∃ vs entries, f.result = .ok vs ∧ vs.dump = .ok entries ∧ e.value = .map entries
  expiresAt : e.expiresAt = some (f.time + seconds)

variable {key : String} {fetches : List Fetch} {f g : Fetch}

theorem Latest.mem (h : Latest key fetches f) : f ∈ fetches ∧ f.Under key := by
  obtain ⟨earlier, _, later, rfl, ⟨rfl, hunder⟩, -⟩ := h
  exact ⟨by simp, hunder⟩

theorem exists_latest (hg : g ∈ fetches) (hunder : g.Under key) : ∃ f, Latest key fetches f :=
  exists_lasts ⟨g, hg, hunder⟩

theorem latest_concat :
    Latest key (fetches ++ [g]) f ↔ (g = f ∧ g.Under key) ∨ Latest key fetches f ∧ ¬ g.Under key :=
  lasts_concat

/-- In a list that is ordered by time, no fetch under the key is later than the last one. -/
theorem Latest.time_le (h : Latest key fetches f)
    (hordered : fetches.Pairwise fun f g => f.time ≤ g.time) (hg : g ∈ fetches)
    (hunder : g.Under key) : g.time ≤ f.time := by
  obtain ⟨earlier, _, later, rfl, ⟨rfl, -⟩, hlater⟩ := h
  rcases List.mem_append.mp hg with hg | hg
  · exact (List.pairwise_append.mp hordered).2.2 g hg _ List.mem_cons_self
  · rcases List.mem_cons.mp hg with rfl | hg
    · exact le_refl _
    · exact absurd hunder (hlater g hg)

theorem Latest.unique (h : Latest key fetches f) (h' : Latest key fetches g) : f = g := by
  induction fetches using List.reverseRecOn with
  | nil => exact absurd h (not_lasts_nil _ _)
  | append_singleton fetches last ih =>
    rcases latest_concat.mp h with ⟨rfl, hunder⟩ | ⟨h, hother⟩
    · rcases latest_concat.mp h' with ⟨rfl, -⟩ | ⟨-, hother⟩
      · rfl
      · exact absurd hunder hother
    · rcases latest_concat.mp h' with ⟨rfl, hunder⟩ | ⟨h', -⟩
      · exact absurd hunder hother
      · exact ih h h'

end Fetch

open Fetch (Latest latest_concat)

namespace Exchange

/-! ### The invariant -/

/-- What was fetched: for which subjects, in the order of time, and with plain variants. -/
structure Recorded (subjects : List Subject) (w : Exchange) : Prop where
  known : ∀ f ∈ w.fetches, f.subject ∈ subjects
  plain : ∀ f ∈ w.fetches, ∀ vs, f.result = .ok vs → vs.Plain
  past : ∀ f ∈ w.fetches, f.time ≤ w.clock
  ordered : w.fetches.Pairwise fun f g => f.time ≤ g.time

/-- What holds at every moment of a run with queries for some subjects.  Under each key stands the
entry of the last fetch, or nothing if there is none or its lifetime is over. -/
structure Sound (seconds : Int) (subjects : List Subject) (w : Exchange) : Prop
    extends Recorded subjects w where
  distinct : MemoryCache.Distinct w.store
  keyed : ∀ x ∈ w.store, ∃ a ∈ subjects, cacheKey a = .ok x.1
  entries : ∀ key e, Assoc.find? key w.store = some e →
    ∃ f, Latest key w.fetches f ∧ f.Fills seconds e
  kept : ∀ key f, Latest key w.fetches f → w.clock ≤ f.time + seconds →
    ∃ e, Assoc.find? key w.store = some e

/-- The cache has room for the keys of all subjects. -/
def Fits (cache : MemoryCache) (subjects : List Subject) : Prop :=
  ∃ keys : List String, (keys.length : Int) ≤ cache.maxSize ∧
    ∀ a ∈ subjects, ∀ key, cacheKey a = .ok key → key ∈ keys

variable {cache : MemoryCache} {ttl : Option Int} {seconds : Int} {subjects : List Subject}
  {w : Exchange} {key : String} {q : Query}

theorem sound_opened (clock : Rat) : Sound seconds subjects (opened clock) where
  known f hf := by cases hf
  plain f hf := by cases hf
  past f hf := by cases hf
  ordered := List.Pairwise.nil
  distinct := List.nodup_nil
  keyed x hx := by cases hx
  entries key e h := by cases h
  kept key f h := absurd h (not_lasts_nil _ _)

/-- A fetch that fails is not the last one for any key. -/
theorem latest_asked_of_error {subject : Subject} {failure : Failure}
    (hanswer : w.answers subject [] = .error failure) {f : Fetch} :
    Latest key (w.asked subject).fetches f ↔ Latest key w.fetches f := by
  have hnone : ¬ Fetch.Under key ⟨w.clock + w.latency, subject, [], w.answers subject []⟩ := by
    rintro ⟨-, vs, hvs⟩
    rw [hanswer] at hvs
    cases hvs
  rw [asked, latest_concat]
  simp only [hnone, and_false, false_or, not_false_eq_true, and_true]

/-- A fetch that delivers is the last one for the key of its subject, and for no other key. -/
theorem latest_asked_of_ok {subject : Subject} (hkey : cacheKey subject = .ok key) {vs : Variants}
    (hanswer : w.answers subject [] = .ok vs) {other : String} {f : Fetch} :
    Latest other (w.asked subject).fetches f ↔
      if other = key then f = ⟨w.clock + w.latency, subject, [], .ok vs⟩
      else Latest other w.fetches f := by
  have hunder : Fetch.Under other ⟨w.clock + w.latency, subject, [], .ok vs⟩ ↔ other = key := by
    rw [Fetch.Under, hkey, Except.ok.injEq, and_iff_left ⟨vs, rfl⟩]
    exact eq_comm
  rw [asked, hanswer, latest_concat, hunder]
  split
  · rename_i hsame
    simp only [hsame, and_true, not_true_eq_false, and_false, or_false]
    exact eq_comm
  · rename_i hother
    simp only [hother, and_false, not_false_eq_true, and_true, false_or]

/-- One more fetch, for one of the subjects and with plain variants if any. -/
theorem Recorded.asked (h : Recorded subjects w) {subject : Subject} (hsubject : subject ∈ subjects)
    (hplain : ∀ vs, w.answers subject [] = .ok vs → vs.Plain) :
    Recorded subjects (w.asked subject) := by
  have hmem : ∀ f ∈ (w.asked subject).fetches,
      f ∈ w.fetches ∨ f = ⟨w.clock + w.latency, subject, [], w.answers subject []⟩ := fun f hf =>
    (List.mem_append.mp hf).imp_right List.mem_singleton.mp
  refine ⟨fun f hf => ?_, fun f hf => ?_, fun f hf => ?_, ?_⟩
  · rcases hmem f hf with hf | rfl
    · exact h.known f hf
    · exact hsubject
  · rcases hmem f hf with hf | rfl
    · exact h.plain f hf
    · exact hplain
  · rcases hmem f hf with hf | rfl
    · exact (h.past f hf).trans (w.clock_le w.latency)
    · exact le_refl _
  · refine List.pairwise_append.mpr ⟨h.ordered, List.pairwise_singleton _ _, fun f hf g hg => ?_⟩
    obtain rfl := List.mem_singleton.mp hg
    exact (h.past f hf).trans (w.clock_le w.latency)

namespace Sound

theorem await (h : Sound seconds subjects w) (q : Query) : Sound seconds subjects (w.await q) :=
  { h with
    past := fun f hf => (h.past f hf).trans (w.clock_le q.wait)
    kept := fun key f hf hfresh => h.kept key f hf ((w.clock_le q.wait).trans hfresh) }

/-- Entries whose lifetime is over can be dropped, and all entries can be moved. -/
theorem prune (h : Sound seconds subjects w) {store : CacheStore}
    (hdistinct : MemoryCache.Distinct store) (hsubset : store ⊆ w.store)
    (hfind : ∀ key, Assoc.find? key store = Assoc.find? key w.store ∨
      Assoc.find? key store = none ∧ ∀ f, Latest key w.fetches f → f.time + seconds < w.clock) :
    Sound seconds subjects { w with store } :=
  { h with
    distinct := hdistinct
    keyed := fun x hx => h.keyed x (hsubset hx)
    entries := fun key e he => by
      rcases hfind key with hsame | ⟨hnone, -⟩
      · exact h.entries key e (hsame ▸ he)
      · rw [hnone] at he
        cases he
    kept := fun key f hf hfresh => by
      rcases hfind key with hsame | ⟨-, hover⟩
      · obtain ⟨e, he⟩ := h.kept key f hf hfresh
        exact ⟨e, hsame.trans he⟩
      · exact absurd hfresh (not_le_of_gt (hover f hf)) }

/-- An entry is dropped when the lifetime of what was fetched last is over. -/
theorem dropped (h : Sound seconds subjects w)
    (hover : ∀ f, Latest key w.fetches f → f.time + seconds < w.clock) :
    Sound seconds subjects { w with store := Assoc.erase key w.store } := by
  refine h.prune (h.distinct.delete key) (Assoc.erase_sublist key w.store).subset fun other => ?_
  by_cases hother : other = key
  · subst hother
    exact .inr ⟨Assoc.find?_erase_self h.distinct, hover⟩
  · exact .inl (Assoc.find?_erase_of_ne hother w.store)

/-- An entry that is used is moved, and found as before. -/
theorem used (h : Sound seconds subjects w) {e : CacheEntry}
    (hfind : Assoc.find? key w.store = some e) :
    Sound seconds subjects { w with store := MemoryCache.touch key e w.store } := by
  refine h.prune (h.distinct.touch key e) (MemoryCache.touch_subset hfind) fun other => .inl ?_
  rw [MemoryCache.find?_touch h.distinct]
  split
  · rename_i hsame
    rw [hsame, hfind]
  · rfl

/-- Reading finds what was fetched last under the key, if its lifetime is not over. -/
theorem read (h : Sound seconds subjects w) (key : String) :
    ∃ store, store ⊆ w.store ∧ Sound seconds subjects { w with store } ∧
      ((∃ f vs, Latest key w.fetches f ∧ f.result = .ok vs ∧ w.clock ≤ f.time + seconds ∧
          (cachingClient cache ttl).read key w = (.ok (some vs), { w with store })) ∨
        (∀ f, Latest key w.fetches f → f.time + seconds < w.clock) ∧
          (cachingClient cache ttl).read key w = (.ok none, { w with store })) := by
  cases hfind : Assoc.find? key w.store with
  | none =>
    have hget : MemoryCache.get w.clock key w.store = (none, w.store) := by
      rw [MemoryCache.get, hfind]
    refine ⟨w.store, List.Subset.refl _, h, .inr ⟨fun f hf => ?_, Storage.read_of_get rfl hget rfl⟩⟩
    refine lt_of_not_ge fun hfresh => ?_
    obtain ⟨e, he⟩ := h.kept key f hf hfresh
    rw [hfind] at he
    cases he
  | some e =>
    obtain ⟨f, hlatest, ⟨vs, entries, hresult, hdump, hvalue⟩, hexpires⟩ := h.entries key e hfind
    have hexpired : MemoryCache.expired w.clock e = decide (f.time + seconds < w.clock) := by
      rw [MemoryCache.expired, hexpires]
    by_cases hover : f.time + seconds < w.clock
    · have hget : MemoryCache.get w.clock key w.store = (none, Assoc.erase key w.store) := by
        rw [MemoryCache.get, hfind]
        simp only [hexpired, decide_eq_true hover, if_true]
      have hlast : ∀ g, Latest key w.fetches g → g.time + seconds < w.clock := by
        intro g hg
        rwa [← hlatest.unique hg]
      exact ⟨_, (Assoc.erase_sublist key w.store).subset, h.dropped hlast,
        .inr ⟨hlast, Storage.read_of_get rfl hget rfl⟩⟩
    · have hlive : MemoryCache.expired w.clock e = false := by
        rw [hexpired, decide_eq_false hover]
      have hget := MemoryCache.get_of_find? hfind hlive
      have hdecode : CachingClient.decode ((some e.value).getD .null) = .ok (some vs) := by
        rw [Option.getD_some, hvalue]
        exact (h.plain f hlatest.mem.1 vs hresult).decode_dump hdump
      exact ⟨_, MemoryCache.touch_subset hfind, h.used hfind,
        .inl ⟨f, vs, hlatest, hresult, not_lt.mp hover, Storage.read_of_get rfl hget hdecode⟩⟩

/-- A fetch that failed leaves all entries as they are. -/
theorem failed (h : Sound seconds subjects w) {subject : Subject} (hsubject : subject ∈ subjects)
    {failure : Failure} (hanswer : w.answers subject [] = .error failure) :
    Sound seconds subjects (w.asked subject) := by
  have hrecorded := h.toRecorded.asked hsubject fun vs hvs => by
    rw [hanswer] at hvs
    cases hvs
  exact { hrecorded with
    distinct := h.distinct
    keyed := h.keyed
    entries := fun key e he => by
      obtain ⟨f, hf, hfills⟩ := h.entries key e he
      exact ⟨f, (latest_asked_of_error hanswer).mpr hf, hfills⟩
    kept := fun key f hf hfresh =>
      h.kept key f ((latest_asked_of_error hanswer).mp hf) ((w.clock_le w.latency).trans hfresh) }

/-- There is room for the key of a subject that is not stored. -/
theorem room (h : Sound seconds subjects w) (hfits : Fits cache subjects) {subject : Subject}
    (hsubject : subject ∈ subjects) (hkey : cacheKey subject = .ok key)
    (hnew : key ∉ w.store.map Prod.fst) : (w.store.length : Int) < cache.maxSize := by
  obtain ⟨keys, hlength, hkeys⟩ := hfits
  have hnodup : (key :: w.store.map Prod.fst).Nodup := List.nodup_cons.mpr ⟨hnew, h.distinct⟩
  have hsubset : key :: w.store.map Prod.fst ⊆ keys := by
    intro other hother
    rcases List.mem_cons.mp hother with rfl | hother
    · exact hkeys subject hsubject other hkey
    · obtain ⟨x, hx, rfl⟩ := List.mem_map.mp hother
      obtain ⟨a, ha, hakey⟩ := h.keyed x hx
      exact hkeys a ha x.1 hakey
  have hle := (hnodup.subperm hsubset).length_le
  rw [List.length_cons, List.length_map] at hle
  omega

/-- What was fetched stands under the key of its subject, and nothing else is touched. -/
theorem written (h : Sound seconds subjects w) {subject : Subject} (hsubject : subject ∈ subjects)
    (hkey : cacheKey subject = .ok key) {vs : Variants} (hanswer : w.answers subject [] = .ok vs)
    (hplain : vs.Plain) {entries : Attributes} (hdump : vs.dump = .ok entries) {store : CacheStore}
    (hdistinct : MemoryCache.Distinct store) (hsubset : ∀ x ∈ store, x.1 = key ∨ x ∈ w.store)
    (hfind : ∀ other, Assoc.find? other store
      = if other = key then some ⟨.map entries, some (w.clock + w.latency + seconds)⟩
        else Assoc.find? other w.store) :
    Sound seconds subjects { w.asked subject with store } := by
  have hrecorded := h.toRecorded.asked hsubject fun others hothers => by
    rw [hanswer] at hothers
    cases hothers
    exact hplain
  exact { hrecorded with
    distinct := hdistinct
    keyed := fun x hx => by
      rcases hsubset x hx with rfl | hx
      · exact ⟨subject, hsubject, hkey⟩
      · exact h.keyed x hx
    entries := fun other e he => by
      rw [hfind other] at he
      split at he
      · rename_i hsame
        cases he
        exact ⟨_, (latest_asked_of_ok hkey hanswer).mpr (by rw [if_pos hsame]),
          ⟨vs, entries, rfl, hdump, rfl⟩, rfl⟩
      · rename_i hother
        obtain ⟨f, hf, hfills⟩ := h.entries other e he
        exact ⟨f, (latest_asked_of_ok hkey hanswer).mpr (by rwa [if_neg hother]), hfills⟩
    kept := fun other f hf hfresh => by
      rw [hfind other]
      split
      · exact ⟨_, rfl⟩
      · rename_i hother
        have hf := (latest_asked_of_ok hkey hanswer).mp hf
        rw [if_neg hother] at hf
        exact h.kept other f hf ((w.clock_le w.latency).trans hfresh) }

/-- Writing what was fetched leaves a sound world, if the cache does not fail. -/
theorem delivered (h : Sound seconds subjects w)
    (hgiven : (ttl <|> cache.defaultTtl) = some seconds) (hpositive : 0 < seconds)
    (hfits : Fits cache subjects) {subject : Subject} (hsubject : subject ∈ subjects)
    (hkey : cacheKey subject = .ok key) {vs : Variants} (hanswer : w.answers subject [] = .ok vs)
    (hplain : vs.Plain) (hshallow : vs.Shallow) {r : Except Failure Unit × Exchange}
    (hwrite : storage.Written cache ttl key vs (w.asked subject) r)
    (hfaults : r.2.faults = w.faults) : Sound seconds subjects r.2 := by
  obtain ⟨entries, hdump⟩ := hplain.exists_dump hshallow
  cases hwrite with
  | undumped _ _ hundumped => cases hdump.symm.trans hundumped
  | silent _ _ _ _ hfault | failing _ _ _ _ hfault => cases hfault
  | refused _ failure _ _ _ _ =>
    exact absurd (List.append_right_eq_self.mp hfaults) (List.cons_ne_nil failure [])
  | stored entries' store hdump' _ hset =>
    cases hdump.symm.trans hdump'
    obtain ⟨expiresAt, hexpiry, hput⟩ := MemoryCache.set_eq_ok hset
    obtain ⟨_, -, hsubset⟩ := MemoryCache.set_subset hset
    rw [MemoryCache.expiry_of_given hgiven hpositive] at hexpiry
    split at hexpiry
    · cases hexpiry
      refine h.written hsubject hkey hanswer hplain hdump (h.distinct.set hset) (fun x hx => ?_)
        (MemoryCache.find?_put h.distinct (h.room hfits hsubject hkey) hput)
      exact (List.mem_cons.mp (hsubset hx)).imp_left (congrArg Prod.fst)
    · cases hexpiry

end Sound

/-! ### Queries -/

/-- How a query is answered: from what was fetched last, if that has not reached its lifetime, or else
by the service, which is asked for all flags and delivers or fails. -/
inductive Served (seconds : Int) (key : String) (q : Query) (w : Exchange) :
    Except Failure Variants → Exchange → Prop
  | saved (f : Fetch) (vs : Variants) (w' : Exchange) (latest : Latest key w.fetches f)
      (result : f.result = .ok vs) (fresh : w.clock + q.wait ≤ f.time + seconds)
      (fetches : w'.fetches = w.fetches) (clock : w'.clock = w.clock + q.wait) :
      Served seconds key q w (.ok (vs.select q.flags)) w'
  | delivered (vs : Variants) (w' : Exchange)
      (elapsed : ∀ f, Latest key w.fetches f → f.time + seconds < w.clock + q.wait)
      (answer : q.answers q.subject [] = .ok vs)
      (fetches : w'.fetches = w.fetches
        ++ [⟨w.clock + q.wait + q.latency, q.subject, [], .ok vs⟩])
      (clock : w'.clock = w.clock + q.wait + q.latency) :
      Served seconds key q w (.ok (vs.select q.flags)) w'
  | raised (failure : Failure) (w' : Exchange)
      (elapsed : ∀ f, Latest key w.fetches f → f.time + seconds < w.clock + q.wait)
      (answer : q.answers q.subject [] = .error failure)
      (fetches : w'.fetches = w.fetches
        ++ [⟨w.clock + q.wait + q.latency, q.subject, [], .error failure⟩])
      (clock : w'.clock = w.clock + q.wait + q.latency) (store : w'.store ⊆ w.store)
      (faults : w'.faults = w.faults) :
      Served seconds key q w (.error failure) w'

namespace Served

variable {result : Except Failure Variants} {w' : Exchange}

/-- If what was fetched last has reached its lifetime, the service is asked. -/
theorem of_over (h : Served seconds key q w result w')
    (hover : ∀ f, Latest key w.fetches f → f.time + seconds < w.clock + q.wait) :
    w'.fetches = w.fetches
        ++ [⟨w.clock + q.wait + q.latency, q.subject, [], q.answers q.subject []⟩] ∧
      w'.clock = w.clock + q.wait + q.latency ∧
      result = (q.answers q.subject []).map (·.select q.flags) ∧
      ∀ failure, q.answers q.subject [] = .error failure →
        w'.store ⊆ w.store ∧ w'.faults = w.faults := by
  cases h with
  | saved f vs _ hlatest _ hfresh _ _ => exact absurd hfresh (not_le_of_gt (hover f hlatest))
  | delivered vs _ _ hanswer hfetches hclock =>
    rw [hanswer]
    exact ⟨hfetches, hclock, rfl, fun failure hfailure => by cases hfailure⟩
  | raised failure _ _ hanswer hfetches hclock hstore hfaults =>
    rw [hanswer]
    exact ⟨hfetches, hclock, rfl, fun _ _ => ⟨hstore, hfaults⟩⟩

/-- If what was fetched last has not reached its lifetime, it is returned. -/
theorem of_fresh (h : Served seconds key q w result w') {f : Fetch} (hlatest : Latest key w.fetches f)
    (hfresh : w.clock + q.wait ≤ f.time + seconds) :
    w'.fetches = w.fetches ∧ w'.clock = w.clock + q.wait ∧
      ∃ vs, f.result = .ok vs ∧ result = .ok (vs.select q.flags) := by
  cases h with
  | saved g vs _ hlatest' hresult _ hfetches hclock =>
    rw [hlatest.unique hlatest']
    exact ⟨hfetches, hclock, vs, hresult, rfl⟩
  | delivered vs _ hover _ _ _ => exact absurd hfresh (not_le_of_gt (hover f hlatest))
  | raised failure _ hover _ _ _ _ _ => exact absurd hfresh (not_le_of_gt (hover f hlatest))

end Served

namespace Sound

/-- A query is answered in one of these ways. -/
theorem served (h : Sound seconds subjects w) (hkey : cacheKey q.subject = .ok key) :
    Served seconds key q w (serve cache ttl q w).1 (serve cache ttl q w).2 := by
  obtain ⟨store, hsubset, -, hread⟩ := @read cache ttl _ _ _ (h.await q) key
  rw [Exchange.serve, CachingClient.evaluate_of_cacheKey hkey]
  rcases hread with ⟨f, vs, hlatest, hresult, hfresh, hread⟩ | ⟨hover, hread⟩
  · rw [CachingClient.fetch_of_hit hread]
    exact .saved f vs _ hlatest hresult hfresh rfl rfl
  · have hasked : (asked q.subject { w.await q with store }).fetches
        = w.fetches ++ [⟨w.clock + q.wait + q.latency, q.subject, [], q.answers q.subject []⟩] := rfl
    cases hanswer : q.answers q.subject [] with
    | error failure =>
      rw [hanswer] at hasked
      rw [fetch_of_error hread hanswer]
      exact .raised failure _ hover hanswer hasked rfl hsubset rfl
    | ok vs =>
      rw [hanswer] at hasked
      have hwrite := @Storage.write_spec Exchange storage cache ttl service key vs
        (asked q.subject { w.await q with store })
      have hkept := hwrite.frame apart
      obtain ⟨hfetches, hclock⟩ := Prod.ext_iff.mp hkept
      rw [fetch_of_ok hread hanswer]
      exact .delivered vs _ hover hanswer (hfetches.trans hasked) hclock

/-- A query preserves the invariant, if the cache does not fail. -/
theorem serve (h : Sound seconds subjects w)
    (hgiven : (ttl <|> cache.defaultTtl) = some seconds) (hpositive : 0 < seconds)
    (hfits : Fits cache subjects) (hq : q.Plain) (hsubject : q.subject ∈ subjects)
    (hfaults : (serve cache ttl q w).2.faults = w.faults) :
    Sound seconds subjects (serve cache ttl q w).2 := by
  obtain ⟨key, hkey⟩ := exists_cacheKey hq.subject hq.shallow
  obtain ⟨store, -, hsound, hread⟩ := @read cache ttl _ _ _ (h.await q) key
  rw [Exchange.serve, CachingClient.evaluate_of_cacheKey hkey] at hfaults ⊢
  rcases hread with ⟨f, vs, -, -, -, hread⟩ | ⟨-, hread⟩
  · rw [CachingClient.fetch_of_hit hread]
    exact hsound
  · cases hanswer : q.answers q.subject [] with
    | error failure =>
      rw [fetch_of_error hread hanswer]
      exact hsound.failed hsubject hanswer
    | ok vs =>
      rw [fetch_of_ok hread hanswer] at hfaults ⊢
      obtain ⟨hplain, hshallow⟩ := hq.answers q.subject [] vs hanswer
      exact hsound.delivered hgiven hpositive hfits hsubject hkey hanswer hplain hshallow
        (Storage.write_spec key vs _) hfaults

end Sound

/-- After a fetch that failed, another query for the subject asks the service again. -/
theorem Sound.retried (h : Sound seconds subjects w)
    (hover : ∀ f, Latest key w.fetches f → f.time + seconds < w.clock + q.wait)
    (hgiven : (ttl <|> cache.defaultTtl) = some seconds) (hpositive : 0 < seconds)
    (hfits : Fits cache subjects) (hq : q.Plain) (hsubject : q.subject ∈ subjects)
    (hkey : cacheKey q.subject = .ok key) {failure : Failure}
    (hanswer : q.answers q.subject [] = .error failure) {next : Query}
    (hnext : cacheKey next.subject = .ok key) :
    let w' := (Exchange.serve cache ttl q w).2
    (Exchange.serve cache ttl next w').2.fetches = w'.fetches
      ++ [⟨w'.clock + next.wait + next.latency, next.subject, [], next.answers next.subject []⟩] := by
  intro w'
  obtain ⟨hfetches, hclock, -, hfailed⟩ := (@served cache ttl _ _ _ _ _ h hkey).of_over hover
  obtain ⟨-, hfaults⟩ := hfailed failure hanswer
  have hsound := h.serve hgiven hpositive hfits hq hsubject hfaults
  refine ((@served cache ttl _ _ _ _ _ hsound hnext).of_over fun f hf => ?_).1
  -- The last fetch that delivered is the same as before, and some more time has gone by.
  rw [hfetches, hanswer, latest_concat] at hf
  rcases hf with ⟨rfl, -, vs, hvs⟩ | ⟨hf, -⟩
  · cases hvs
  · have hlatency : (0 : Rat) ≤ q.latency := q.latency.2
    have hwait : (0 : Rat) ≤ next.wait := next.wait.2
    have := hover f hf
    rw [hclock]
    linarith

/-- However many queries there are, the world stays sound, if the cache never fails. -/
theorem sound_run (hgiven : (ttl <|> cache.defaultTtl) = some seconds) (hpositive : 0 < seconds)
    (hfits : Fits cache subjects) (h : Sound seconds subjects w) {queries : List Query}
    (hqueries : ∀ q ∈ queries, q.Plain ∧ q.subject ∈ subjects)
    (hfaults : (run cache ttl queries w).faults = []) :
    Sound seconds subjects (run cache ttl queries w) := by
  induction queries using List.reverseRecOn with
  | nil => exact h
  | append_singleton queries q ih =>
    rw [run_concat] at hfaults ⊢
    -- Failures are never forgotten, so there were none before the last query either.
    have hprefix := @faults_prefix_serve cache ttl q (run cache ttl queries w)
    rw [hfaults, List.prefix_nil] at hprefix
    obtain ⟨hq, hsubject⟩ := hqueries q (by simp)
    have hsound := ih (fun x hx => hqueries x (List.mem_append_left _ hx)) hprefix
    exact hsound.serve hgiven hpositive hfits hq hsubject (hfaults.trans hprefix.symm)

/-- Variants were fetched for the subject within the lifetime exactly when those that were fetched last
are within it. -/
theorem Sound.repeated_iff (h : Sound seconds subjects w) {subject : Subject}
    (hunder : ∀ f ∈ w.fetches, f.Under key ↔ f.Delivered subject) {now : Rat} :
    (∃ f ∈ w.fetches, f.Delivered subject ∧ now ≤ f.time + seconds) ↔
      ∃ f, Latest key w.fetches f ∧ now ≤ f.time + seconds := by
  constructor
  · rintro ⟨g, hg, hdelivered, hfresh⟩
    have hg' := (hunder g hg).mpr hdelivered
    obtain ⟨f, hlatest⟩ := Fetch.exists_latest hg hg'
    have hle := hlatest.time_le h.ordered hg hg'
    exact ⟨f, hlatest, hfresh.trans (by linarith)⟩
  · rintro ⟨f, hlatest, hfresh⟩
    obtain ⟨hf, hf'⟩ := hlatest.mem
    exact ⟨f, hf, (hunder f hf).mp hf', hfresh⟩

end Exchange

open Exchange

namespace Query.Plain

variable {q r : Query} (hq : q.Plain) (hr : r.Plain)
include hq hr

/-- Alike subjects have one key. -/
theorem cacheKey_eq (h : q.subject.Alike r.subject) : cacheKey q.subject = cacheKey r.subject := by
  obtain ⟨_, _, -, -, -, hsame, -⟩ :=
    exists_fingerprint_iff_alike hq.subject hr.subject hq.shallow hr.shallow
  exact hsame h

/-- Subjects whose fingerprints do not collide share a key exactly when they are alike. -/
theorem cacheKey_iff (h : Subject.Apart q.subject r.subject) {key : String}
    (hkey : cacheKey r.subject = .ok key) :
    cacheKey q.subject = .ok key ↔ q.subject.Alike r.subject := by
  obtain ⟨s, t, hs, ht, -, hsame, halike⟩ :=
    exists_fingerprint_iff_alike hq.subject hr.subject hq.shallow hr.shallow
  rw [← hkey]
  exact ⟨halike (h s t hs ht), hsame⟩

end Query.Plain

namespace Query.Manageable

variable {cache : MemoryCache} {queries : List Query} (h : Manageable cache queries)
include h

theorem room (hne : queries ≠ []) : 1 ≤ cache.maxSize := by
  obtain ⟨subjects, -, hlength, hfew⟩ := h.few
  obtain ⟨q, hq⟩ := List.exists_mem_of_ne_nil queries hne
  obtain ⟨a, ha, -⟩ := hfew q hq
  have := List.length_pos_of_mem ha
  omega

/-- Alike subjects have one key, so there are no more keys than subjects. -/
theorem fits : Fits cache (queries.map Query.subject) := by
  obtain ⟨subjects, hsubset, hlength, hfew⟩ := h.few
  refine ⟨subjects.filterMap fun a => (cacheKey a).toOption, ?_, fun b hb key hkey => ?_⟩
  · have := subjects.length_filterMap_le fun a => (cacheKey a).toOption
    omega
  · obtain ⟨q, hq, rfl⟩ := List.mem_map.mp hb
    obtain ⟨a, ha, halike⟩ := hfew q hq
    obtain ⟨r, hr, rfl⟩ := List.mem_map.mp (hsubset ha)
    have hsame := (h.plain r hr).cacheKey_eq (h.plain q hq) halike
    exact List.mem_filterMap.mpr ⟨r.subject, ha, by rw [hsame, hkey]; rfl⟩

/-- What was fetched under the key of a subject was fetched for the subject. -/
theorem under_iff {f : Fetch} (hf : f.subject ∈ queries.map Query.subject) {q : Query}
    (hq : q ∈ queries) {key : String} (hkey : cacheKey q.subject = .ok key) :
    f.Under key ↔ f.Delivered q.subject := by
  obtain ⟨r, hr, hsubject⟩ := List.mem_map.mp hf
  rw [Fetch.Under, Fetch.Delivered, ← hsubject,
    (h.plain r hr).cacheKey_iff (h.plain q hq) (h.apart r hr q hq) hkey]

end Query.Manageable

end Rollout
