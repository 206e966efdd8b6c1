/-
The order in which keys were used decides which one is evicted.

A key is used when a value is written under it, and when a value is found under it.  The entries
stand in the order of the last uses of their keys; a new key in a full cache takes the place of the
first of them, and nothing else evicts.  So a key stays while few other keys are used.

* `CacheEvent.used?`, `UsedSince` — uses, and their order;
* `CacheEvent.Moves`, `CacheEvent.Effect.moves` — what a command does to the stored keys;
* `Recent`, `Recent.step` — the order of the stored keys, and that every command preserves it;
* `evicts_by_recency` — every run, its next command, and the keys that stay.
-/
import Mathlib.Data.Finset.Dedup
import Mathlib.Data.Finset.Card
import Rollout.Proofs.Cache.History
import Rollout.Proofs.Sequence

namespace Rollout

namespace CacheEvent

/-- The key that a command uses: one under which a value was written, or found. -/
def used? (e : CacheEvent) : Option String :=
  match e.command, e.reply with
  | .request (.set key _ _), .ok _ => some key
  | .request (.get key), _ => if e.before.live key then some key else none
  | _, _ => none

/-- The keys that were used, in the order of their uses. -/
def uses (history : List CacheEvent) : List String := history.filterMap used?

/-- A key is no longer wanted: it was deleted, all were, or it was looked up after its end. -/
def Drops (e : CacheEvent) (key : String) : Prop :=
  e.command = .request (.delete key) ∨ e.command = .request .clear ∨
    e.LooksUp key ∧ e.before.lapsed key = true

/-- What a command does to the stored keys. -/
inductive Moves (cache : MemoryCache) (e : CacheEvent) : Prop
  | refreshed (key : String) (use : e.used? = some key) (old : key ∈ e.before.keys)
      (after : e.after.keys = e.before.keys.erase key ++ [key])
  | added (key : String) (use : e.used? = some key) (new : key ∉ e.before.keys)
      (room : e.before.keys.length < cache.maxSize) (after : e.after.keys = e.before.keys ++ [key])
  | evicted (key oldest : String) (rest : List String) (use : e.used? = some key)
      (written : ∃ value ttl, e.Stores key value ttl) (new : key ∉ e.before.keys)
      (full : cache.maxSize ≤ e.before.keys.length) (before : e.before.keys = oldest :: rest)
      (after : e.after.keys = rest ++ [key])
  | kept (use : e.used? = none) (after : e.after.keys = e.before.keys)
  | dropped (key : String) (use : e.used? = none) (drops : e.Drops key)
      (after : e.after.keys = e.before.keys.erase key)
  | emptied (use : e.used? = none) (drops : ∀ key, e.Drops key) (after : e.after.keys = [])

end CacheEvent

namespace MemoryState

variable {s : MemoryState} {key : String} {x : CacheEntry}

theorem mem_keys_of_find? (h : Assoc.find? key s.store = some x) : key ∈ s.keys :=
  List.mem_map_of_mem (f := Prod.fst) (Assoc.mem_of_find? h)

theorem keys_erase (s : MemoryState) (key : String) :
    ({ s with store := Assoc.erase key s.store } : MemoryState).keys = s.keys.erase key :=
  Assoc.keys_erase key s.store

theorem keys_touch (s : MemoryState) (key : String) (x : CacheEntry) :
    ({ s with store := MemoryCache.touch key x s.store } : MemoryState).keys
      = s.keys.erase key ++ [key] := by
  rw [keys, MemoryCache.touch, List.map_append, Assoc.keys_erase]
  rfl

theorem live_of_find? (h : Assoc.find? key s.store = some x)
    (hlive : MemoryCache.expired s.clock x = false) : s.live key = true := by
  rw [live, h]
  simp only [hlive, Bool.not_false]

theorem live_of_find?_none (h : Assoc.find? key s.store = none) : s.live key = false := by
  rw [live, h]

theorem live_of_expired (h : Assoc.find? key s.store = some x)
    (hdead : MemoryCache.expired s.clock x = true) : s.live key = false := by
  rw [live, h]
  simp only [hdead, Bool.not_true]

theorem lapsed_of_find? (h : Assoc.find? key s.store = some x)
    (hdead : MemoryCache.expired s.clock x = true) : s.lapsed key = true := by
  rw [lapsed, h]
  exact hdead

end MemoryState

namespace CacheEvent

variable {cache : MemoryCache} {e : CacheEvent}

/-- Every command moves the stored keys in one of a few ways. -/
theorem Effect.moves (h : e.Effect cache) : e.Moves cache := by
  cases h with
  | hit s key x found live =>
    refine .refreshed key ?_ (MemoryState.mem_keys_of_find? found) (s.keys_touch key x)
    simp only [used?, MemoryState.live_of_find? found live, if_true]
  | missed s key absent =>
    refine .kept ?_ rfl
    simp [used?, MemoryState.live_of_find?_none absent]
  | lapsed s key x found dead =>
    refine .dropped key ?_ ?_ (s.keys_erase key)
    · simp [used?, MemoryState.live_of_expired found dead]
    · exact .inr (.inr ⟨.inl rfl, MemoryState.lapsed_of_find? found dead⟩)
  | present s key x found live => exact .kept rfl rfl
  | absent s key absent => exact .kept rfl rfl
  | gone s key x found dead =>
    exact .dropped key rfl (.inr (.inr ⟨.inr rfl, MemoryState.lapsed_of_find? found dead⟩))
      (s.keys_erase key)
  | stored s key value ttl expiresAt store expiry put =>
    have hlength : s.keys.length = s.store.length := List.length_map _
    rcases MemoryCache.put_cases put with
      ⟨hold, rfl⟩ | ⟨hnew, hroom, rfl⟩ | ⟨hnew, hfull, first, rest, hstore, rfl⟩
    · exact .refreshed key rfl hold (s.keys_touch key _)
    · exact .added key rfl hnew (by rw [hlength]; exact hroom) (by simp [MemoryState.keys])
    · refine .evicted key first.1 (rest.map Prod.fst) rfl ⟨value, ttl, rfl, rfl⟩ hnew
        (by rw [hlength]; exact hfull) ?_ (by simp [MemoryState.keys])
      rw [MemoryState.keys, hstore, List.map_cons]
  | refused s key value ttl failure set => exact .kept rfl rfl
  | deleted s key => exact .dropped key rfl (.inl rfl) (s.keys_erase key)
  | cleared s => exact .emptied rfl (fun key => .inr (.inl rfl)) rfl
  | counted s => exact .kept rfl rfl
  | advanced s seconds => exact .kept rfl rfl

theorem uses_concat (history : List CacheEvent) (e : CacheEvent) :
    uses (history ++ [e]) = uses history ++ e.used?.toList := by
  rw [uses, List.filterMap_append, ← uses]
  cases h : e.used? <;> simp [h]

end CacheEvent

/-! ### The order of the stored keys -/

/-- One key was used since the last use of another. -/
def UsedSince (uses : List String) (key other : String) : Prop :=
  ∃ earlier later, uses = earlier ++ key :: later ∧ key ∉ later ∧ other ∈ later

section UsedSince

variable {uses : List String} {key other new : String}

theorem UsedSince.concat (h : UsedSince uses key other) (hne : key ≠ new) :
    UsedSince (uses ++ [new]) key other := by
  obtain ⟨earlier, later, rfl, hkey, hother⟩ := h
  refine ⟨earlier, later ++ [new], by simp, ?_, List.mem_append_left _ hother⟩
  simp [hkey, hne]

theorem usedSince_last (h : key ∈ uses) (hne : key ≠ new) : UsedSince (uses ++ [new]) key new := by
  obtain ⟨earlier, later, rfl, hkey⟩ := split_last h
  refine ⟨earlier, later ++ [new], by simp, ?_, by simp⟩
  simp [hkey, hne]

/-- What was used since the last use of a key was used since any use of it. -/
theorem UsedSince.mem {earlier later : List String} (h : UsedSince uses key other)
    (huses : uses = earlier ++ key :: later) : other ∈ later := by
  obtain ⟨before, after, hlast, hkey, hother⟩ := h
  have hafter : key :: after <:+ uses := ⟨before, hlast.symm⟩
  have hlater : key :: later <:+ uses := ⟨earlier, huses.symm⟩
  rcases List.suffix_or_suffix_of_suffix hafter hlater with hsuffix | hsuffix
  · rcases List.suffix_cons_iff.mp hsuffix with heq | hsuffix
    · cases heq
      exact hother
    · exact hsuffix.subset (List.mem_cons_of_mem _ hother)
  · rcases List.suffix_cons_iff.mp hsuffix with heq | hsuffix
    · cases heq
      exact hother
    -- The key itself would have been used since its last use.
    · exact absurd (hsuffix.subset List.mem_cons_self) hkey

end UsedSince

/-- The stored keys are distinct, not too many, and stand in the order of their last uses. -/
structure Recent (cache : MemoryCache) (uses : List String) (s : MemoryState) : Prop where
  distinct : s.keys.Nodup
  size : s.keys.length ≤ cache.maxSize
  used : ∀ key ∈ s.keys, key ∈ uses
  order : s.keys.Pairwise (UsedSince uses)

namespace Recent

variable {cache : MemoryCache} {uses : List String} {s s' : MemoryState}

theorem empty (hsize : 1 ≤ cache.maxSize) (clock : Rat) : Recent cache [] ⟨[], clock⟩ where
  distinct := List.nodup_nil
  size := by
    rw [MemoryState.keys, List.map_nil, List.length_nil]
    omega
  used := by simp [MemoryState.keys]
  order := List.Pairwise.nil

theorem sublist (h : Recent cache uses s) (hsub : s'.keys.Sublist s.keys) :
    Recent cache uses s' where
  distinct := hsub.nodup h.distinct
  size := (Int.ofNat_le.mpr hsub.length_le).trans h.size
  used key hkey := h.used key (hsub.subset hkey)
  order := h.order.sublist hsub

/-- A key that is used goes behind those that stay. -/
theorem append (h : Recent cache uses s) {kept : List String} {key : String}
    (hsub : kept.Sublist s.keys) (hnew : key ∉ kept) (hroom : kept.length < cache.maxSize)
    (hkeys : s'.keys = kept ++ [key]) : Recent cache (uses ++ [key]) s' := by
  have hne : ∀ other ∈ kept, other ≠ key := by
    rintro other hother rfl
    exact hnew hother
  constructor
  · rw [hkeys, List.nodup_append]
    refine ⟨hsub.nodup h.distinct, List.nodup_singleton key, fun a ha b hb => ?_⟩
    rw [List.mem_singleton.mp hb]
    exact hne a ha
  · rw [hkeys, List.length_append, List.length_singleton]
    omega
  · intro other hother
    rw [hkeys] at hother
    rcases List.mem_append.mp hother with hother | hother
    · exact List.mem_append_left _ (h.used other (hsub.subset hother))
    · exact List.mem_append_right _ hother
  · rw [hkeys, List.pairwise_append]
    refine ⟨?_, List.pairwise_singleton _ _, fun a ha b hb => ?_⟩
    · exact (h.order.sublist hsub).imp_of_mem fun ha _ hab => hab.concat (hne _ ha)
    · rw [List.mem_singleton.mp hb]
      exact usedSince_last (h.used a (hsub.subset ha)) (hne a ha)

/-- Every command preserves the order of the stored keys. -/
theorem step {e : CacheEvent} (h : Recent cache uses e.before) (he : e.Moves cache) :
    Recent cache (uses ++ e.used?.toList) e.after := by
  cases he with
  | refreshed key use old after =>
    rw [use]
    refine h.append (List.erase_sublist) ?_ ?_ after
    · exact fun hmem => (h.distinct.mem_erase_iff.mp hmem).1 rfl
    · have hlength := List.length_erase_of_mem old
      have hpos := List.length_pos_of_mem old
      have hsize := h.size
      omega
  | added key use new room after =>
    rw [use]
    exact h.append (List.Sublist.refl _) new room after
  | evicted key oldest rest use _ new full before after =>
    rw [use]
    have hsize := h.size
    rw [before] at new hsize
    refine h.append ?_ (fun hmem => new (List.mem_cons_of_mem _ hmem)) ?_ after
    · rw [before]
      exact List.sublist_cons_self oldest rest
    · rw [List.length_cons] at hsize
      omega
  | kept use after =>
    rw [use, Option.toList_none, List.append_nil]
    exact h.sublist (by rw [after])
  | dropped key use drops after =>
    rw [use, Option.toList_none, List.append_nil]
    exact h.sublist (by rw [after]; exact List.erase_sublist)
  | emptied use drops after =>
    rw [use, Option.toList_none, List.append_nil]
    exact h.sublist (by rw [after]; exact List.nil_sublist _)

end Recent

/-! ### The next command -/

/-- The laws of the next command, for keys that were used before. -/
structure CacheEvent.Lawful (cache : MemoryCache) (uses : List String) (e : CacheEvent) : Prop where
  /-- A stored key that is used becomes the last one. -/
  refreshed : ∀ key, e.used? = some key → key ∈ e.before.keys →
    e.after.keys = e.before.keys.erase key ++ [key]
  /-- A new key is added while there is room. -/
  added : ∀ key, e.used? = some key → key ∉ e.before.keys →
    e.before.keys.length < cache.maxSize → e.after.keys = e.before.keys ++ [key]
  /-- In a full cache a new key takes the place of the one whose last use is the oldest. -/
  evicted : ∀ key, e.used? = some key → key ∉ e.before.keys →
    e.before.keys.length = cache.maxSize → ∃ oldest rest, e.before.keys = oldest :: rest ∧
      (∀ other ∈ rest, UsedSince uses oldest other) ∧ e.after.keys = rest ++ [key]
  /-- A command that uses no key adds none, and leaves the others in their order. -/
  unused : e.used? = none → e.after.keys.Sublist e.before.keys
  /-- Keys are lost when they are no longer wanted, or to a new key in a full cache. -/
  lost : ∀ key ∈ e.before.keys, key ∉ e.after.keys → e.Drops key ∨
    e.before.keys.head? = some key ∧ e.before.keys.length = cache.maxSize ∧
      ∃ new value ttl, e.Stores new value ttl ∧ new ∉ e.before.keys
  /-- A command that fails changes nothing. -/
  failed : ∀ failure, e.reply = .error failure → e.after = e.before

namespace CacheEvent

variable {cache : MemoryCache} {e : CacheEvent} {key : String}

theorem Moves.of_used (h : e.Moves cache) (huse : e.used? = some key) :
    (key ∈ e.before.keys ∧ e.after.keys = e.before.keys.erase key ++ [key]) ∨
    (key ∉ e.before.keys ∧ e.before.keys.length < cache.maxSize ∧
      e.after.keys = e.before.keys ++ [key]) ∨
    (key ∉ e.before.keys ∧ cache.maxSize ≤ e.before.keys.length ∧
      ∃ oldest rest, e.before.keys = oldest :: rest ∧ e.after.keys = rest ++ [key]) := by
  cases h with
  | refreshed key' use old after =>
    cases use.symm.trans huse
    exact .inl ⟨old, after⟩
  | added key' use new room after =>
    cases use.symm.trans huse
    exact .inr (.inl ⟨new, room, after⟩)
  | evicted key' oldest rest use _ new full before after =>
    cases use.symm.trans huse
    exact .inr (.inr ⟨new, full, oldest, rest, before, after⟩)
  | kept use | dropped key' use | emptied use =>
    cases use.symm.trans huse

theorem Moves.of_unused (h : e.Moves cache) (huse : e.used? = none) :
    e.after.keys.Sublist e.before.keys := by
  cases h with
  | kept use after =>
    rw [after]
  | dropped key' use drops after =>
    rw [after]
    exact List.erase_sublist
  | emptied use drops after =>
    rw [after]
    exact List.nil_sublist _
  | refreshed key' use | added key' use | evicted key' oldest rest use =>
    cases use.symm.trans huse

/-- A used key is stored. -/
theorem Moves.mem_of_used (h : e.Moves cache) (huse : e.used? = some key) :
    key ∈ e.after.keys := by
  rcases h.of_used huse with ⟨-, after⟩ | ⟨-, -, after⟩ | ⟨-, -, oldest, rest, -, after⟩ <;>
  · rw [after]
    simp

theorem Moves.lost (h : e.Moves cache) (hkey : key ∈ e.before.keys) (hlost : key ∉ e.after.keys) :
    e.Drops key ∨ cache.maxSize ≤ e.before.keys.length ∧ ∃ new rest value ttl,
      e.before.keys = key :: rest ∧ e.used? = some new ∧ e.Stores new value ttl ∧
        new ∉ e.before.keys := by
  cases h with
  | refreshed key' use old after =>
    rw [after] at hlost
    by_cases hsame : key = key'
    · simp [hsame] at hlost
    · exact absurd (List.mem_append_left _ ((List.mem_erase_of_ne hsame).mpr hkey)) hlost
  | added key' use new room after =>
    rw [after] at hlost
    exact absurd (List.mem_append_left _ hkey) hlost
  | evicted key' oldest rest use written new full before after =>
    obtain ⟨value, ttl, hstores⟩ := written
    rw [after] at hlost
    have hfirst : key = oldest := by
      rw [before] at hkey
      exact (List.mem_cons.mp hkey).resolve_right fun h => hlost (List.mem_append_left _ h)
    exact .inr ⟨full, key', rest, value, ttl, by rw [before, hfirst], use, hstores, new⟩
  | kept use after =>
    rw [after] at hlost
    exact absurd hkey hlost
  | dropped key' use drops after =>
    rw [after] at hlost
    by_cases hsame : key = key'
    · rw [hsame]
      exact .inl drops
    · exact absurd ((List.mem_erase_of_ne hsame).mpr hkey) hlost
  | emptied use drops after => exact .inl (drops key)

theorem Effect.lawful {uses : List String} (h : e.Effect cache)
    (hrecent : Recent cache uses e.before) : e.Lawful cache uses where
  refreshed key huse hold := by
    rcases h.moves.of_used huse with ⟨-, after⟩ | ⟨hnew, -⟩ | ⟨hnew, -⟩
    · exact after
    · exact absurd hold hnew
    · exact absurd hold hnew
  added key huse hnew hroom := by
    rcases h.moves.of_used huse with ⟨hold, -⟩ | ⟨-, -, after⟩ | ⟨-, hfull, -⟩
    · exact absurd hold hnew
    · exact after
    · omega
  evicted key huse hnew hfull := by
    rcases h.moves.of_used huse with ⟨hold, -⟩ | ⟨-, hroom, -⟩ | ⟨-, -, oldest, rest, before, after⟩
    · exact absurd hold hnew
    · omega
    · have horder := hrecent.order
      rw [before, List.pairwise_cons] at horder
      exact ⟨oldest, rest, before, horder.1, after⟩
  unused huse := h.moves.of_unused huse
  lost key hkey hlost := by
    rcases h.moves.lost hkey hlost with hdrops | ⟨hfull, new, rest, value, ttl, before, -, hwritten⟩
    · exact .inl hdrops
    · refine .inr ⟨by rw [before, List.head?_cons], ?_, new, value, ttl, hwritten⟩
      have hsize := hrecent.size
      omega
  failed failure hreply := by
    cases h with
    | refused s key value ttl failure' set => rfl
    | _ => cases hreply

end CacheEvent

/-! ### Whole runs -/

/-- A key was used and not dropped since, while fewer other keys were used than there is room for. -/
def Retained (cache : MemoryCache) (history : List CacheEvent) (key : String) : Prop :=
  ∃ earlier e later, history = earlier ++ e :: later ∧ e.used? = some key ∧
    (∀ x ∈ later, ¬ x.Drops key) ∧
    ((CacheEvent.uses later).toFinset.erase key).card < cache.maxSize

/-- A key that stands first has at most as many behind it as other keys were used since. -/
theorem Recent.card_le {cache : MemoryCache} {uses earlier later : List String} {s : MemoryState}
    (h : Recent cache uses s) {key : String} {rest : List String} (hkeys : s.keys = key :: rest)
    (huses : uses = earlier ++ key :: later) {new : String} (hnew : new ∉ s.keys) :
    s.keys.length ≤ ((later ++ [new]).toFinset.erase key).card := by
  obtain ⟨distinct, -, -, order⟩ := h
  rw [hkeys] at distinct order hnew
  rw [List.pairwise_cons] at order
  rw [List.nodup_cons] at distinct
  have hfresh : (new :: rest).Nodup :=
    List.nodup_cons.mpr ⟨fun h => hnew (List.mem_cons_of_mem _ h), distinct.2⟩
  calc s.keys.length = (new :: rest).toFinset.card := by
        rw [List.toFinset_card_of_nodup hfresh, hkeys, List.length_cons, List.length_cons]
    _ ≤ ((later ++ [new]).toFinset.erase key).card := by
        refine Finset.card_le_card fun other hother => ?_
        rw [Finset.mem_erase, List.mem_toFinset, List.mem_append]
        rcases List.mem_cons.mp (List.mem_toFinset.mp hother) with rfl | hother
        · exact ⟨fun h => hnew (by rw [h]; exact List.mem_cons_self),
            .inr (List.mem_singleton_self other)⟩
        · refine ⟨?_, .inl ((order.1 other hother).mem huses)⟩
          rintro rfl
          exact distinct.1 hother

theorem Recent.retained_step {cache : MemoryCache} {history : List CacheEvent} {e : CacheEvent}
    (h : Recent cache (CacheEvent.uses history) e.before) (he : e.Moves cache)
    (hkept : ∀ key, Retained cache history key → key ∈ e.before.keys) {key : String}
    (hkey : Retained cache (history ++ [e]) key) : key ∈ e.after.keys := by
  obtain ⟨earlier, x, later, hsplit, huse, hwanted, hfew⟩ := hkey
  rcases split_concat hsplit with ⟨-, rfl, -⟩ | ⟨rest, rfl, rfl⟩
  · exact he.mem_of_used huse
  · have huses : CacheEvent.uses (rest ++ [e]) = CacheEvent.uses rest ++ e.used?.toList :=
      CacheEvent.uses_concat rest e
    have hbefore : key ∈ e.before.keys := by
      refine hkept key ⟨earlier, x, rest, rfl, huse,
        fun y hy => hwanted y (List.mem_append_left _ hy), lt_of_le_of_lt ?_ hfew⟩
      rw [huses, List.toFinset_append]
      exact Int.ofNat_le.mpr (Finset.card_le_card
        (Finset.erase_subset_erase key Finset.subset_union_left))
    by_contra hlost
    rcases he.lost hbefore hlost with
      hdrops | ⟨hfull, new, others, value, ttl, hkeys, hnew, -, habsent⟩
    · exact hwanted e (by simp) hdrops
    -- The key stood first in a full cache, so as many other keys were used as there is room for.
    · have hall : CacheEvent.uses (earlier ++ x :: rest)
          = CacheEvent.uses earlier ++ key :: CacheEvent.uses rest := by
        simp [CacheEvent.uses, huse]
      have hcard := h.card_le hkeys hall habsent
      rw [huses, hnew, Option.toList_some] at hfew
      omega

/-- **Keys are evicted by the order of their last uses.**  After any run the stored keys are
distinct, not too many, and in the order of their last uses; the next command is lawful; and a key
stays stored while fewer other keys are used than there is room for. -/
theorem evicts_by_recency (cache : MemoryCache) (hsize : 1 ≤ cache.maxSize) (clock : Rat)
    (commands : List CacheCommand) :
    Recent cache (CacheEvent.uses (cache.run clock commands).history)
        (cache.run clock commands).state ∧
      (∀ command, (cache.event (cache.run clock commands).state command).Lawful cache
        (CacheEvent.uses (cache.run clock commands).history)) ∧
      ∀ key, Retained cache (cache.run clock commands).history key →
        key ∈ (cache.run clock commands).state.keys := by
  have hrun := cache.run_induction (P := fun r =>
    Recent cache (CacheEvent.uses r.history) r.state ∧
      ∀ key, Retained cache r.history key → key ∈ r.state.keys) clock ?empty ?step commands
  case empty =>
    refine ⟨.empty hsize clock, ?_⟩
    rintro key ⟨earlier, e, later, hsplit, -⟩
    simp at hsplit
  case step =>
    rintro ⟨history, state⟩ e rfl he ⟨hrecent, hkept⟩
    refine ⟨?_, fun key => hrecent.retained_step he.moves hkept⟩
    rw [CacheEvent.uses_concat]
    exact hrecent.step he.moves
  exact ⟨hrun.1, fun command => (MemoryCache.event_effect _ command).lawful hrun.1, hrun.2⟩

/-- A third key in a cache for two takes the place of the one that was not read meanwhile. -/
theorem evicts_by_recency_unread :
    let cache : MemoryCache := ⟨2, none⟩
    let r := cache.run 0 [.request (.set "a" (.int 1) none), .request (.set "b" (.int 2) none),
      .request (.get "a"), .request (.set "c" (.int 3) none)]
    1 ≤ cache.maxSize ∧ r.state.keys = ["a", "c"] ∧ Retained cache r.history "a" ∧
      "a" ∈ r.state.keys ∧ Recent cache (CacheEvent.uses r.history) r.state := by
  intro cache r
  have hsize : 1 ≤ cache.maxSize := by decide
  have hretained : Retained cache r.history "a" := by
    refine ⟨r.history.take 2, r.history[2], r.history.drop 3, rfl, rfl, fun x hx => ?_, by decide⟩
    have hx : x ∈ [r.history[3]] := hx
    rw [List.mem_singleton.mp hx]
    rintro (h | h | ⟨h | h, -⟩) <;> cases h
  obtain ⟨hrecent, -, hkept⟩ := evicts_by_recency cache hsize 0 _
  exact ⟨hsize, rfl, hretained, hkept "a" hretained, hrecent⟩

end Rollout
