/-
A lookup finds what was written last.

What is found under a key is the value of the latest write under it, as long as the key was not
deleted and not evicted since and the lifetime of the write lasts.  This is all that a lookup says:
looking up other keys, dropping what has expired and moving entries leave no trace in it.

* `CacheEvent.Removes`, `Current` — what the history says is under a key;
* `CacheEvent.Effect.mem_after`, `mem_before` — what becomes of an entry in one command;
* `Written`, `Faithful.step` — every entry is the latest write, and every command preserves that;
* `Faithful.current_iff`, `Current.of_append` — what is current is found, and stays what it was;
* `lookup_exact` — what lookups reply after any run.
-/
import Rollout.Proofs.Cache.History
import Rollout.Proofs.Sequence

namespace Rollout

namespace CacheEvent

/-- A stored key makes room for another one. -/
def Evicts (e : CacheEvent) (key : String) : Prop :=
  (∃ other value ttl, e.Stores other value ttl) ∧ key ∈ e.before.keys ∧ key ∉ e.after.keys

/-- What is under a key is replaced, deleted or evicted. -/
def Removes (e : CacheEvent) (key : String) : Prop :=
  (∃ value ttl, e.Stores key value ttl) ∨ e.command = .request (.delete key) ∨
    e.command = .request .clear ∨ e.Evicts key

/-! ### What becomes of an entry -/

variable {cache : MemoryCache} {e : CacheEvent}

/-- An entry is written with the end of its lifetime. -/
def Writes (cache : MemoryCache) (e : CacheEvent) (y : String × CacheEntry) : Prop :=
  ∃ ttl, e.Stores y.1 y.2.value ttl ∧ cache.expiry e.before.clock ttl = .ok y.2.expiresAt

theorem Effect.clock_le (h : e.Effect cache) : e.before.clock ≤ e.after.clock := by
  cases h with
  | advanced s seconds => exact le_add_of_nonneg_right seconds.2
  | _ => exact le_refl _

theorem Effect.distinct (h : e.Effect cache) (hdistinct : MemoryCache.Distinct e.before.store) :
    MemoryCache.Distinct e.after.store := by
  cases h with
  | hit s key x found live => exact hdistinct.touch key x
  | lapsed s key | gone s key | deleted s key => exact hdistinct.delete key
  | stored s key value ttl expiresAt store expiry put =>
    obtain ⟨kept, hkept, rfl, hnew⟩ := MemoryCache.put_eq_ok put
    exact (hdistinct.sublist hkept).append (hnew hdistinct) _
  | cleared s => exact List.nodup_nil
  | _ => exact hdistinct

/-- An entry is one from before that was not removed, or was written just now. -/
theorem Effect.mem_after (h : e.Effect cache) (hdistinct : MemoryCache.Distinct e.before.store)
    {y : String × CacheEntry} (hy : y ∈ e.after.store) :
    (y ∈ e.before.store ∧ ¬ e.Removes y.1) ∨ e.Writes cache y := by
  cases h with
  | hit s key x found live =>
    refine .inl ⟨?_, by simp [Removes, Evicts, Stores]⟩
    rcases List.mem_append.mp hy with hy | hy
    · exact (Assoc.erase_sublist key s.store).subset hy
    · rw [List.mem_singleton.mp hy]
      exact Assoc.mem_of_find? found
  | lapsed s key | gone s key =>
    exact .inl ⟨(Assoc.erase_sublist key s.store).subset hy, by simp [Removes, Evicts, Stores]⟩
  | stored s key value ttl expiresAt store expiry put =>
    obtain ⟨kept, hkept, rfl, hnew⟩ := MemoryCache.put_eq_ok put
    rcases List.mem_append.mp hy with hmem | hmem
    · refine .inl ⟨hkept.subset hmem, ?_⟩
      rintro (⟨value', ttl', hstores, -⟩ | hdelete | hclear | ⟨-, -, hlost⟩)
      · cases hstores
        exact (Assoc.find?_eq_none_iff.mp (hnew hdistinct)) (List.mem_map_of_mem hmem)
      · cases hdelete
      · cases hclear
      · exact hlost (List.mem_map_of_mem hy)
    · rw [List.mem_singleton.mp hmem]
      exact .inr ⟨ttl, ⟨rfl, rfl⟩, expiry⟩
  | deleted s key =>
    refine .inl ⟨(Assoc.erase_sublist key s.store).subset hy, ?_⟩
    have hne := hdistinct.ne_of_mem_erase hy
    simp [Removes, Evicts, Stores, Ne.symm hne]
  | cleared s => cases hy
  | _ => exact .inl ⟨hy, by simp [Removes, Evicts, Stores]⟩

/-- An entry that has not expired stays unless it is removed. -/
theorem Effect.mem_before (h : e.Effect cache) (hdistinct : MemoryCache.Distinct e.before.store)
    {y : String × CacheEntry} (hy : y ∈ e.before.store) (hkept : ¬ e.Removes y.1)
    (hlive : MemoryCache.expired e.before.clock y.2 = false) : y ∈ e.after.store := by
  cases h with
  | hit s key x found live =>
    by_cases hsame : y.1 = key
    · obtain ⟨k, y⟩ := y
      cases hsame
      rw [hdistinct.unique hy (Assoc.mem_of_find? found)]
      exact List.mem_append_right _ (List.mem_singleton_self _)
    · exact List.mem_append_left _ (Assoc.mem_erase_of_ne hy hsame)
  | lapsed s key x found dead | gone s key x found dead =>
    refine Assoc.mem_erase_of_ne hy ?_
    rintro rfl
    rw [hdistinct.unique hy (Assoc.mem_of_find? found), dead] at hlive
    cases hlive
  | stored s key value ttl expiresAt store expiry put =>
    obtain ⟨kept, hkept', rfl, -⟩ := MemoryCache.put_eq_ok put
    -- The key is still there, so what is there is the entry from before or the new one.
    have hthere : y.1 ∈ (kept ++ [(key, (⟨value, expiresAt⟩ : CacheEntry))]).map Prod.fst := by
      by_contra hlost
      exact hkept (.inr (.inr (.inr ⟨⟨key, value, ttl, rfl, rfl⟩, List.mem_map_of_mem hy, hlost⟩)))
    obtain ⟨z, hz, hsame⟩ := List.mem_map.mp hthere
    rcases List.mem_append.mp hz with hmem | hmem
    · obtain ⟨k, y⟩ := y
      obtain ⟨k', z⟩ := z
      cases hsame
      rw [hdistinct.unique hy (hkept'.subset hmem)]
      exact hz
    · rw [List.mem_singleton.mp hmem] at hsame
      exact absurd (.inl ⟨value, ttl, by rw [← hsame], rfl⟩) hkept
  | deleted s key =>
    refine Assoc.mem_erase_of_ne hy ?_
    rintro rfl
    exact hkept (.inr (.inl rfl))
  | cleared s => exact absurd (.inr (.inr (.inl rfl))) hkept
  | _ => exact hy

/-- What is written is there. -/
theorem Effect.mem_of_writes (h : e.Effect cache) {y : String × CacheEntry}
    (hy : e.Writes cache y) : y ∈ e.after.store := by
  obtain ⟨ttl', ⟨hcommand, hreply⟩, hexpiry⟩ := hy
  cases h with
  | stored s key value ttl expiresAt store expiry put =>
    cases hcommand
    obtain ⟨kept, -, rfl, -⟩ := MemoryCache.put_eq_ok put
    cases expiry.symm.trans hexpiry
    exact List.mem_append_right _ (List.mem_singleton_self _)
  | refused s key value ttl failure set => cases hreply
  | _ => cases hcommand

theorem Effect.exists_expiry (h : e.Effect cache) {key : String} {value : Value}
    {ttl : Option Int} (hstores : e.Stores key value ttl) :
    ∃ expiresAt, cache.expiry e.before.clock ttl = .ok expiresAt := by
  obtain ⟨hcommand, hreply⟩ := hstores
  cases h with
  | stored s key' value' ttl' expiresAt store expiry put =>
    cases hcommand
    exact ⟨expiresAt, expiry⟩
  | refused s key' value' ttl' failure set => cases hreply
  | _ => cases hcommand

end CacheEvent

/-! ### What the history says -/

/-- An entry is the latest that was written under its key, and was not removed. -/
def Written (cache : MemoryCache) (history : List CacheEvent) (y : String × CacheEntry) : Prop :=
  Lasts (·.Writes cache y) (fun e => ¬ e.Removes y.1) history

/-- A value is the latest that was written under a key, it was neither deleted nor evicted since,
and its lifetime reaches until now. -/
def Current (cache : MemoryCache) (history : List CacheEvent) (now : Rat) (key : String)
    (value : Value) : Prop :=
  Lasts (fun e => ∃ ttl, e.Stores key value ttl ∧ cache.Reaches ttl e.before.clock now)
    (fun e => ¬ e.Removes key) history

/-- The entries are what the history says, but for those that have expired. -/
structure Faithful (cache : MemoryCache) (r : CacheRun) : Prop where
  effects : ∀ e ∈ r.history, e.Effect cache
  distinct : MemoryCache.Distinct r.state.store
  written : ∀ y ∈ r.state.store, Written cache r.history y
  present : ∀ y, Written cache r.history y →
    MemoryCache.expired r.state.clock y.2 = false → y ∈ r.state.store

namespace Faithful

variable {cache : MemoryCache} {r : CacheRun}

theorem empty (clock : Rat) : Faithful cache ⟨[], [], clock⟩ where
  effects _ h := by cases h
  distinct := List.nodup_nil
  written _ h := by cases h
  present _ h := absurd h (not_lasts_nil _ _)

/-- Every command preserves that the entries are what the history says. -/
theorem step (h : Faithful cache r) {e : CacheEvent} (hbefore : e.before = r.state)
    (he : e.Effect cache) : Faithful cache ⟨r.history ++ [e], e.after⟩ where
  effects x hx := by
    rcases List.mem_append.mp hx with hx | hx
    · exact h.effects x hx
    · rw [List.mem_singleton.mp hx]
      exact he
  distinct := he.distinct (hbefore ▸ h.distinct)
  written y hy := by
    refine lasts_concat.mpr ?_
    rcases he.mem_after (hbefore ▸ h.distinct) hy with ⟨hold, hkept⟩ | hwrites
    · exact .inr ⟨h.written y (hbefore ▸ hold), hkept⟩
    · exact .inl hwrites
  present y hy hlive := by
    rcases lasts_concat.mp hy with hwrites | ⟨hwritten, hkept⟩
    · exact he.mem_of_writes hwrites
    · have hlive' := MemoryCache.not_expired_of_le he.clock_le hlive
      exact he.mem_before (hbefore ▸ h.distinct)
        (hbefore ▸ h.present y hwritten (hbefore ▸ hlive')) hkept hlive'

theorem of_run (cache : MemoryCache) (clock : Rat) (commands : List CacheCommand) :
    Faithful cache (cache.run clock commands) :=
  cache.run_induction clock (.empty clock) (fun _ _ hbefore he h => h.step hbefore he) commands

/-- What the history says is under a key is what is found there. -/
theorem current_iff (h : Faithful cache r) {key : String} {value : Value} :
    Current cache r.history r.state.clock key value ↔
      ∃ x, Assoc.find? key r.state.store = some x ∧
        MemoryCache.expired r.state.clock x = false ∧ x.value = value := by
  constructor
  · rintro ⟨earlier, e, later, hsplit, ⟨ttl, hstores, hreaches⟩, hkept⟩
    have he := h.effects e (by rw [hsplit]; simp)
    obtain ⟨expiresAt, hexpiry⟩ := he.exists_expiry hstores
    have hlive := (MemoryCache.expired_iff_reaches (e := ⟨value, expiresAt⟩) hexpiry).mpr hreaches
    refine ⟨⟨value, expiresAt⟩, h.distinct.find?_eq_some ?_, hlive, rfl⟩
    exact h.present (key, ⟨value, expiresAt⟩)
      ⟨earlier, e, later, hsplit, ⟨ttl, hstores, hexpiry⟩, hkept⟩ hlive
  · rintro ⟨x, hfind, hlive, rfl⟩
    obtain ⟨earlier, e, later, hsplit, ⟨ttl, hstores, hexpiry⟩, hkept⟩ :=
      h.written (key, x) (Assoc.mem_of_find? hfind)
    exact ⟨earlier, e, later, hsplit,
      ⟨ttl, hstores, (MemoryCache.expired_iff_reaches hexpiry).mp hlive⟩, hkept⟩

end Faithful

/-! ### What lookups reply -/

namespace MemoryCache

variable {cache : MemoryCache} {now : Rat} {key : String} {store : CacheStore}

theorem get_eq_some_iff {value : Value} : (get now key store).1 = some value ↔
    ∃ x, Assoc.find? key store = some x ∧ expired now x = false ∧ x.value = value := by
  unfold get
  cases hfind : Assoc.find? key store with
  | none => simp
  | some x =>
    cases hexpired : expired now x <;> simp [hexpired]

theorem exists?_eq_true_iff : (exists? now key store).1 = true ↔
    ∃ x, Assoc.find? key store = some x ∧ expired now x = false := by
  unfold exists?
  cases hfind : Assoc.find? key store with
  | none => simp
  | some x =>
    cases hexpired : expired now x <;> simp [hexpired]

theorem reply_get_iff (s : MemoryState) {value : Value} (hvalue : value ≠ .null) :
    (cache.event s (.request (.get key))).reply = .ok (.value value) ↔
      (get s.clock key s.store).1 = some value := by
  simp only [event_get, Except.ok.injEq, CacheReply.value.injEq]
  cases (get s.clock key s.store).1 with
  | none => simp [hvalue.symm]
  | some found => simp

theorem reply_get_null_iff (s : MemoryState) :
    (cache.event s (.request (.get key))).reply = .ok (.value .null) ↔
      ∀ value, (get s.clock key s.store).1 = some value → value = .null := by
  simp only [event_get, Except.ok.injEq, CacheReply.value.injEq]
  cases (get s.clock key s.store).1 <;> simp

theorem reply_exists?_iff (s : MemoryState) {found : Bool} :
    (cache.event s (.request (.exists? key))).reply = .ok (.found found) ↔
      (exists? s.clock key s.store).1 = found := by
  simp only [event_exists?, Except.ok.injEq, CacheReply.found.injEq]

theorem run_concat (clock : Rat) (commands : List CacheCommand) (command : CacheCommand) :
    cache.run clock (commands ++ [command]) = cache.proceed (cache.run clock commands) command := by
  rw [run, List.foldl_append, ← run]
  rfl

end MemoryCache

namespace Current

variable {cache : MemoryCache} {history : List CacheEvent} {e : CacheEvent} {now : Rat}
  {key : String} {value : Value}

theorem concat_iff : Current cache (history ++ [e]) now key value ↔
    (∃ ttl, e.Stores key value ttl ∧ cache.Reaches ttl e.before.clock now) ∨
      Current cache history now key value ∧ ¬ e.Removes key :=
  lasts_concat

theorem of_le {later : Rat} (h : Current cache history later key value) (hle : now ≤ later) :
    Current cache history now key value := by
  obtain ⟨earlier, e, rest, hsplit, ⟨ttl, hstores, hreaches⟩, hkept⟩ := h
  exact ⟨earlier, e, rest, hsplit,
    ⟨ttl, hstores, fun seconds hgiven hne => hle.trans (hreaches seconds hgiven hne)⟩, hkept⟩

/-- What is current later was current before, unless it was written meanwhile. -/
theorem of_append {clock : Rat} {commands later : List CacheCommand}
    (hnone : ∀ value ttl, .request (.set key value ttl) ∉ later)
    (h : Current cache (cache.run clock (commands ++ later)).history
      (cache.run clock (commands ++ later)).state.clock key value) :
    Current cache (cache.run clock commands).history (cache.run clock commands).state.clock
      key value := by
  induction later using List.reverseRecOn with
  | nil => rwa [List.append_nil] at h
  | append_singleton later command ih =>
    refine ih (fun value ttl hmem => hnone value ttl (List.mem_append_left _ hmem)) ?_
    rw [← List.append_assoc, MemoryCache.run_concat] at h
    rcases concat_iff.mp h with ⟨ttl, ⟨hcommand, -⟩, -⟩ | ⟨hcurrent, -⟩
    · exact absurd (List.mem_append_right _ (List.mem_singleton.mpr hcommand.symm))
        (hnone value ttl)
    · exact hcurrent.of_le (MemoryCache.event_effect _ command).clock_le

/-- A write replaces the value and its end. -/
theorem write_iff {s : MemoryState} {other : Value} {ttl : Option Int}
    (hdone : (cache.event s (.request (.set key value ttl))).reply = .ok .done) :
    Current cache (history ++ [cache.event s (.request (.set key value ttl))]) now key other ↔
      other = value ∧ cache.Reaches ttl s.clock now := by
  rw [concat_iff]
  constructor
  · rintro (⟨ttl', ⟨hcommand, -⟩, hreaches⟩ | ⟨-, hkept⟩)
    · cases hcommand
      exact ⟨rfl, hreaches⟩
    · exact absurd (.inl ⟨value, ttl, rfl, hdone⟩) hkept
  · rintro ⟨rfl, hreaches⟩
    exact .inl ⟨ttl, ⟨rfl, hdone⟩, hreaches⟩

end Current

/-- **A lookup finds what was written last.**  After any run, what is read under a key is the value
of the latest write under it, if the key was neither deleted nor evicted since and the lifetime of
that write reaches until now, and nothing otherwise; a key exists exactly then.  A write succeeds
exactly when its lifetime can be measured, and replaces the value and its end; no other command
makes a value current again. -/
theorem lookup_exact (cache : MemoryCache) (hsize : 1 ≤ cache.maxSize) (clock : Rat)
    (commands : List CacheCommand) (key : String) :
    let r := cache.run clock commands
    let reply := fun request => (cache.event r.state (.request request)).reply
    (∀ value, value ≠ .null →
      (reply (.get key) = .ok (.value value) ↔
        Current cache r.history r.state.clock key value)) ∧
    (reply (.get key) = .ok (.value .null) ↔
      ∀ value, Current cache r.history r.state.clock key value → value = .null) ∧
    (reply (.exists? key) = .ok (.found true) ↔
      ∃ value, Current cache r.history r.state.clock key value) ∧
    (reply (.exists? key) = .ok (.found false) ↔
      ¬ ∃ value, Current cache r.history r.state.clock key value) ∧
    (∀ value ttl, reply (.set key value ttl) = .ok .done ↔ cache.Measurable ttl) ∧
    (∀ value ttl, cache.Measurable ttl → ∀ now other,
      Current cache (cache.run clock (commands ++ [.request (.set key value ttl)])).history now
        key other ↔ other = value ∧ cache.Reaches ttl r.state.clock now) ∧
    ∀ later, (∀ value ttl, .request (.set key value ttl) ∉ later) → ∀ value,
      Current cache (cache.run clock (commands ++ later)).history
        (cache.run clock (commands ++ later)).state.clock key value →
      Current cache r.history r.state.clock key value := by
  intro r reply
  have hfaithful : Faithful cache r := .of_run cache clock commands
  have hget : ∀ value, (MemoryCache.get r.state.clock key r.state.store).1 = some value ↔
      Current cache r.history r.state.clock key value := fun value =>
    MemoryCache.get_eq_some_iff.trans hfaithful.current_iff.symm
  have hexists : (MemoryCache.exists? r.state.clock key r.state.store).1 = true ↔
      ∃ value, Current cache r.history r.state.clock key value := by
    rw [MemoryCache.exists?_eq_true_iff]
    simp only [hfaithful.current_iff]
    exact ⟨fun ⟨x, hfind, hlive⟩ => ⟨x.value, x, hfind, hlive, rfl⟩,
      fun ⟨_, x, hfind, hlive, _⟩ => ⟨x, hfind, hlive⟩⟩
  have hset := MemoryCache.reply_set_iff hsize r.state key
  refine ⟨fun value hvalue => (MemoryCache.reply_get_iff r.state hvalue).trans (hget value), ?_,
    (MemoryCache.reply_exists?_iff r.state).trans hexists, ?_, hset,
    fun value ttl hmeasurable now other => ?_, fun later hnone value h => h.of_append hnone⟩
  · simp only [← hget]
    exact MemoryCache.reply_get_null_iff r.state
  · rw [← hexists, Bool.not_eq_true]
    exact MemoryCache.reply_exists?_iff r.state
  · rw [MemoryCache.run_concat, MemoryCache.proceed]
    exact Current.write_iff ((hset value ttl).mpr hmeasurable)

/-- A value with a lifetime of ten seconds is read and exists for that long. -/
theorem lookup_exact_ten_seconds :
    let cache : MemoryCache := ⟨2, some 60⟩
    let set : CacheCommand := .request (.set "a" (.int 1) (some 10))
    let within := cache.run 0 [set, .advance 10]
    let after := cache.run 0 [set, .advance 11]
    1 ≤ cache.maxSize ∧
      (cache.event within.state (.request (.get "a"))).reply = .ok (.value (.int 1)) ∧
      Current cache within.history within.state.clock "a" (.int 1) ∧
      (cache.event after.state (.request (.exists? "a"))).reply = .ok (.found false) ∧
      ¬ ∃ value, Current cache after.history after.state.clock "a" value := by
  intro cache set within after
  have hsize : 1 ≤ cache.maxSize := by decide
  have hwithin := lookup_exact cache hsize 0 [set, .advance 10] "a"
  have hafter := lookup_exact cache hsize 0 [set, .advance 11] "a"
  have hget : (cache.event within.state (.request (.get "a"))).reply = .ok (.value (.int 1)) := by
    have hfind : Assoc.find? "a" within.state.store = some ⟨.int 1, some (0 + (10 : Int))⟩ := rfl
    rw [MemoryCache.event_get, MemoryCache.get_of_find? hfind (by decide +kernel)]
    rfl
  have hexists : (cache.event after.state (.request (.exists? "a"))).reply = .ok (.found false) := by
    have hgone : (MemoryCache.exists? after.state.clock "a" after.state.store).1 = false := by
      decide +kernel
    rw [MemoryCache.event_exists?, hgone]
  exact ⟨hsize, hget, (hwithin.1 (.int 1) (by simp)).mp hget, hexists,
    hafter.2.2.2.1.mp hexists⟩

end Rollout
