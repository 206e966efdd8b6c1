/-
The entries of a cache in memory.

Every operation on the cache keeps the keys of its entries distinct, drops entries or adds the one
that it writes, and leaves what it wrote to be found.

* `MemoryCache.Distinct` — the keys are distinct, before and after every operation;
* `MemoryCache.get_subset`, `MemoryCache.put_eq_ok` — which entries stay;
* `MemoryCache.get_of_find?` — a live entry is read;
* `MemoryCache.exists_set` — what is written to a cache with room is found;
* `MemoryCache.exists_set_iff`, `MemoryCache.expired_iff_reaches` — what lifetimes are accepted, and
  how long they last.
-/
import Mathlib.Data.List.Nodup
import Rollout.Cache.Memory
import Rollout.Proofs.Assoc
import Rollout.Proofs.Failure

namespace Rollout

namespace MemoryCache

variable {cache : MemoryCache} {now : Rat} {key : String} {value : Value} {ttl : Option Int}
  {e : CacheEntry} {store store' : CacheStore}

/-- The keys of the entries are distinct. -/
def Distinct (store : CacheStore) : Prop := (store.map Prod.fst).Nodup

theorem Distinct.sublist (h : Distinct store) (hsub : store'.Sublist store) : Distinct store' :=
  (hsub.map Prod.fst).nodup h

/-- A key has one entry. -/
theorem Distinct.unique (h : Distinct store) {x y : CacheEntry} (hx : (key, x) ∈ store)
    (hy : (key, y) ∈ store) : x = y :=
  congrArg Prod.snd (List.inj_on_of_nodup_map h hx hy rfl)

theorem Distinct.find?_eq_some (h : Distinct store) {x : CacheEntry} (hx : (key, x) ∈ store) :
    Assoc.find? key store = some x := by
  cases hfind : Assoc.find? key store with
  | none =>
    rw [Assoc.find?_eq_none_iff] at hfind
    exact absurd (List.mem_map_of_mem hx) hfind
  | some y => rw [h.unique hx (Assoc.mem_of_find? hfind)]

theorem Distinct.ne_of_mem_erase (h : Distinct store) {x : String × CacheEntry}
    (hx : x ∈ Assoc.erase key store) : x.1 ≠ key := by
  rintro rfl
  have hnone := @Assoc.find?_erase_self _ _ _ _ x.1 store h
  rw [Assoc.find?_eq_none_iff] at hnone
  exact hnone (List.mem_map_of_mem hx)

theorem Distinct.append (h : Distinct store) (hnew : Assoc.find? key store = none)
    (e : CacheEntry) : Distinct (store ++ [(key, e)]) := by
  rw [Assoc.find?_eq_none_iff] at hnew
  rw [Distinct, List.map_append, List.nodup_append]
  refine ⟨h, by simp, fun a ha b hb heq => hnew ?_⟩
  rw [← show b = key from List.mem_singleton.mp hb, ← heq]
  exact ha

theorem find?_append_new (hnew : Assoc.find? key store = none) (e : CacheEntry) (other : String) :
    Assoc.find? other (store ++ [(key, e)])
      = if other = key then some e else Assoc.find? other store := by
  rw [Assoc.find?_append, Assoc.find?, Assoc.find?]
  by_cases hsame : other = key
  · rw [hsame, hnew, Option.none_or, if_pos (beq_self_eq_true key), if_pos rfl]
  · rw [if_neg (by rw [beq_iff_eq]; exact Ne.symm hsame), if_neg hsame, Option.or_none]

theorem Distinct.touch (h : Distinct store) (key : String) (e : CacheEntry) :
    Distinct (touch key e store) :=
  (h.sublist (Assoc.erase_sublist key store)).append (Assoc.find?_erase_self h) e

theorem find?_touch (h : Distinct store) (e : CacheEntry) (other : String) :
    Assoc.find? other (touch key e store)
      = if other = key then some e else Assoc.find? other store := by
  rw [touch, find?_append_new (Assoc.find?_erase_self h)]
  split
  · rfl
  · rename_i hne
    rw [Assoc.find?_erase_of_ne hne]

/-! ### Reading -/

theorem get_of_find? (hfind : Assoc.find? key store = some e) (hlive : expired now e = false) :
    get now key store = (some e.value, touch key e store) := by
  rw [get, hfind]
  simp only [hlive, Bool.false_eq_true, if_false]

theorem le_of_not_expired {limit : Rat} (hexpires : e.expiresAt = some limit)
    (hlive : expired now e = false) : now ≤ limit := by
  rw [expired, hexpires] at hlive
  exact Rat.not_lt.mp (of_decide_eq_false hlive)

/-- Using an entry moves it, and adds nothing. -/
theorem touch_subset (hfind : Assoc.find? key store = some e) : touch key e store ⊆ store := by
  intro x hx
  rcases List.mem_append.mp hx with hx | hx
  · exact (Assoc.erase_sublist key store).subset hx
  · rw [List.mem_singleton.mp hx]
    exact Assoc.mem_of_find? hfind

theorem get_subset (now : Rat) (key : String) (store : CacheStore) :
    (get now key store).2 ⊆ store := by
  unfold get
  split
  · exact List.Subset.refl _
  · rename_i e hfind
    split
    · exact (Assoc.erase_sublist key store).subset
    · exact touch_subset hfind

/-- What is read is an entry that has not expired. -/
theorem get_mem (h : (get now key store).1 = some value) :
    ∃ e, (key, e) ∈ store ∧ expired now e = false ∧ e.value = value := by
  unfold get at h
  split at h
  · cases h
  · rename_i e hfind
    split at h
    · cases h
    · rename_i hlive
      cases h
      exact ⟨e, Assoc.mem_of_find? hfind, Bool.not_eq_true _ ▸ hlive, rfl⟩

theorem Distinct.get (h : Distinct store) (now : Rat) (key : String) :
    Distinct (get now key store).2 := by
  unfold MemoryCache.get
  split
  · exact h
  · split
    · exact h.sublist (Assoc.erase_sublist key store)
    · exact h.touch key _

theorem Distinct.delete (h : Distinct store) (key : String) : Distinct (delete key store) :=
  h.sublist (Assoc.erase_sublist key store)

/-! ### Writing -/

/-- Writing an entry replaces the one under its key, finds room, or takes the place of the least
recently used one. -/
theorem put_cases (h : cache.put key e store = .ok store') :
    (key ∈ store.map Prod.fst ∧ store' = touch key e store) ∨
    (key ∉ store.map Prod.fst ∧ store.length < cache.maxSize ∧ store' = store ++ [(key, e)]) ∨
    (key ∉ store.map Prod.fst ∧ cache.maxSize ≤ store.length ∧
      ∃ first rest, store = first :: rest ∧ store' = rest ++ [(key, e)]) := by
  unfold put at h
  split at h
  · rename_i hold
    cases h
    rw [Assoc.contains, Option.isSome_iff_ne_none, ne_eq, Assoc.find?_eq_none_iff, not_not] at hold
    exact .inl ⟨hold, rfl⟩
  · rename_i hnew
    rw [Assoc.contains, Option.not_isSome_iff_eq_none, Assoc.find?_eq_none_iff] at hnew
    split at h
    · rename_i hfull
      split at h
      · cases h
      · rename_i first rest
        cases h
        exact .inr (.inr ⟨hnew, hfull, first, rest, rfl, rfl⟩)
    · rename_i hroom
      cases h
      exact .inr (.inl ⟨hnew, Int.not_le.mp hroom, rfl⟩)

/-- Writing an entry keeps some of the others, in their order, and puts the entry at the end. -/
theorem put_eq_ok (h : cache.put key e store = .ok store') :
    ∃ kept, kept.Sublist store ∧ store' = kept ++ [(key, e)] ∧
      (Distinct store → Assoc.find? key kept = none) := by
  rcases put_cases h with ⟨-, rfl⟩ | ⟨hnew, -, rfl⟩ | ⟨hnew, -, first, rest, rfl, rfl⟩
  · exact ⟨_, Assoc.erase_sublist key store, rfl, Assoc.find?_erase_self⟩
  · exact ⟨store, List.Sublist.refl _, rfl, fun _ => Assoc.find?_eq_none_iff.mpr hnew⟩
  · -- The first entry makes room, and the new key is not among the others.
    refine ⟨rest, List.sublist_cons_self first rest, rfl, fun _ => ?_⟩
    rw [Assoc.find?_eq_none_iff]
    exact fun hmem => hnew (List.mem_cons_of_mem _ hmem)

/-- As long as there is room for a new key, writing an entry changes nothing under other keys. -/
theorem find?_put (h : Distinct store)
    (hroom : key ∉ store.map Prod.fst → store.length < cache.maxSize)
    (hput : cache.put key e store = .ok store') (other : String) :
    Assoc.find? other store' = if other = key then some e else Assoc.find? other store := by
  rcases put_cases hput with ⟨-, rfl⟩ | ⟨hnew, -, rfl⟩ | ⟨hnew, hfull, -⟩
  · exact find?_touch h e other
  · exact find?_append_new (Assoc.find?_eq_none_iff.mpr hnew) e other
  · exact absurd (hroom hnew) (Int.not_lt.mpr hfull)

/-- A cache with room for an entry takes what is written. -/
theorem exists_put (hroom : 1 ≤ cache.maxSize) (key : String) (e : CacheEntry)
    (store : CacheStore) : ∃ store', cache.put key e store = .ok store' := by
  unfold put
  split
  · exact ⟨_, rfl⟩
  · split
    · rename_i hfull
      split
      · simp only [List.length_nil] at hfull
        omega
      · exact ⟨_, rfl⟩
    · exact ⟨_, rfl⟩

theorem set_eq_ok (h : cache.set now key value ttl store = .ok store') :
    ∃ expiresAt, cache.expiry now ttl = .ok expiresAt ∧
      cache.put key ⟨value, expiresAt⟩ store = .ok store' := by
  unfold set at h
  split at h
  · rename_i expiresAt hexpiry
    exact ⟨expiresAt, hexpiry, h⟩
  · cases h

/-- Whatever keeps a value from being written has a text. -/
theorem hasText_of_set {f : Failure} (h : cache.set now key value ttl store = .error f) :
    f.HasText := by
  unfold set at h
  split at h
  · unfold put at h
    split at h
    · cases h
    · split at h
      · split at h
        · cases h
          exact ⟨_, rfl⟩
        · cases h
      · cases h
  · rename_i hexpiry
    cases h
    unfold expiry at hexpiry
    split at hexpiry
    · cases hexpiry
    · split at hexpiry
      · cases hexpiry
      · split at hexpiry
        · cases hexpiry
        · cases hexpiry
          exact ⟨_, rfl⟩

theorem set_subset (h : cache.set now key value ttl store = .ok store') :
    ∃ expiresAt, cache.expiry now ttl = .ok expiresAt ∧
      store' ⊆ (key, ⟨value, expiresAt⟩) :: store := by
  obtain ⟨expiresAt, hexpiry, hput⟩ := set_eq_ok h
  obtain ⟨kept, hkept, rfl, -⟩ := put_eq_ok hput
  refine ⟨expiresAt, hexpiry, fun x hx => ?_⟩
  rcases List.mem_append.mp hx with hx | hx
  · exact List.mem_cons_of_mem _ (hkept.subset hx)
  · rw [List.mem_singleton.mp hx]
    exact List.mem_cons_self

theorem Distinct.set (h : Distinct store)
    (hset : cache.set now key value ttl store = .ok store') : Distinct store' := by
  obtain ⟨expiresAt, -, hput⟩ := set_eq_ok hset
  obtain ⟨kept, hkept, rfl, hnew⟩ := put_eq_ok hput
  exact (h.sublist hkept).append (hnew h) _

/-- What is written to a cache with room is found. -/
theorem exists_set (hroom : 1 ≤ cache.maxSize) (h : Distinct store) {expiresAt : Option Rat}
    (hexpiry : cache.expiry now ttl = .ok expiresAt) (key : String) (value : Value) :
    ∃ store', cache.set now key value ttl store = .ok store' ∧
      Assoc.find? key store' = some ⟨value, expiresAt⟩ := by
  obtain ⟨store', hput⟩ := exists_put hroom key ⟨value, expiresAt⟩ store
  obtain ⟨kept, -, rfl, hnew⟩ := put_eq_ok hput
  refine ⟨_, ?_, by rw [find?_append_new (hnew h), if_pos rfl]⟩
  rw [set, hexpiry]
  exact hput

/-! ### Lifetimes

The default stands for a lifetime that is not given; neither no lifetime nor one of zero ever ends.
-/

/-- A lifetime of some length ends, unless it is beyond the range of the clock. -/
theorem expiry_of_given {seconds : Int} (hgiven : (ttl <|> cache.defaultTtl) = some seconds)
    (h : 0 < seconds) : cache.expiry now ttl
      = if measurable seconds then .ok (some (now + seconds)) else .error .floatOverflow := by
  have hne : seconds ≠ 0 := by omega
  simp only [expiry, hgiven, hne, if_false]

theorem expiry_of_pos {seconds : Int} (h : 0 < seconds) :
    cache.expiry now (some seconds)
      = if measurable seconds then .ok (some (now + seconds)) else .error .floatOverflow :=
  expiry_of_given rfl h

/-- A lifetime that ends, if it does, within the range of the clock. -/
def Measurable (cache : MemoryCache) (ttl : Option Int) : Prop :=
  ∀ seconds, (ttl <|> cache.defaultTtl) = some seconds → seconds ≠ 0 → measurable seconds = true

theorem measurable_of_pos {seconds : Int} (h : 0 < seconds) :
    cache.Measurable (some seconds) ↔ measurable seconds = true := by
  refine ⟨fun hmeasurable => hmeasurable seconds rfl (by omega), ?_⟩
  rintro hmeasurable seconds' ⟨⟩ -
  exact hmeasurable

theorem expiry_eq_ok_iff : (∃ expiresAt, cache.expiry now ttl = .ok expiresAt) ↔
    cache.Measurable ttl := by
  unfold expiry Measurable
  cases (ttl <|> cache.defaultTtl) with
  | none => simp
  | some seconds =>
    by_cases hzero : seconds = 0
    · simp [hzero]
    · by_cases hmeasurable : measurable seconds = true <;> simp [hzero, hmeasurable]

/-- A lifetime that began then reaches until now. -/
def Reaches (cache : MemoryCache) (ttl : Option Int) (begun now : Rat) : Prop :=
  ∀ seconds, (ttl <|> cache.defaultTtl) = some seconds → seconds ≠ 0 → now ≤ begun + seconds

/-- An entry has not expired exactly when its lifetime reaches until now. -/
theorem expired_iff_reaches {begun : Rat} (h : cache.expiry begun ttl = .ok e.expiresAt) :
    expired now e = false ↔ cache.Reaches ttl begun now := by
  unfold expiry at h
  unfold expired Reaches
  cases hgiven : (ttl <|> cache.defaultTtl) with
  | none =>
    simp only [hgiven, Except.ok.injEq] at h
    simp [← h]
  | some seconds =>
    simp only [hgiven] at h
    split at h
    · rename_i hzero
      rw [Except.ok.injEq] at h
      simp [← h, hzero]
    · rename_i hzero
      split at h
      · rw [← Except.ok.inj h]
        constructor
        · intro hlive other hother _
          cases hother
          exact Rat.not_lt.mp (of_decide_eq_false hlive)
        · intro hreaches
          exact decide_eq_false (Rat.not_lt.mpr (hreaches seconds rfl hzero))
      · cases h

theorem not_expired_of_le {later : Rat} (hle : now ≤ later) (h : expired later e = false) :
    expired now e = false := by
  unfold expired at h ⊢
  split at h
  · exact decide_eq_false
      (Rat.not_lt.mpr (Rat.le_trans hle (Rat.not_lt.mp (of_decide_eq_false h))))
  · rfl

/-- A cache with room takes everything whose lifetime it can measure. -/
theorem exists_set_iff (hroom : 1 ≤ cache.maxSize) :
    (∃ store', cache.set now key value ttl store = .ok store') ↔ cache.Measurable ttl := by
  rw [← @expiry_eq_ok_iff cache now ttl]
  constructor
  · rintro ⟨store', hset⟩
    obtain ⟨expiresAt, hexpiry, -⟩ := set_eq_ok hset
    exact ⟨expiresAt, hexpiry⟩
  · rintro ⟨expiresAt, hexpiry⟩
    obtain ⟨store', hput⟩ := exists_put hroom key ⟨value, expiresAt⟩ store
    exact ⟨store', by rw [set, hexpiry]; exact hput⟩

end MemoryCache

end Rollout
