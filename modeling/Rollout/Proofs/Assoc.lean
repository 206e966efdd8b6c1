/-
Association lists with distinct keys.

In a list that holds every key once the order of the entries does not matter: what is found under a
key is the same in whatever order the entries stand.  Writing such a list over another one replaces
values in their places and adds the new entries at the end.

* `Assoc.Distinct` — no key occurs twice;
* `Assoc.find?_perm` — finding does not depend on the order;
* `Assoc.Distinct.find?_update` — what is found after writing a list over another one;
* `Assoc.Distinct.update_eq`, `Assoc.Distinct.update_perm` — what writing a list over another one leaves;
* `Assoc.Distinct.mem_of_mem_update` — which entries are there afterwards.
-/
import Mathlib.Data.List.Induction
import Mathlib.Data.List.Pairwise
import Rollout.Assoc

namespace Rollout

namespace Assoc

variable {α β : Type} [BEq α]

/-! ### Finding and erasing keys -/

theorem exists_mem_of_find? {key : α} {value : β} {entries : Assoc α β}
    (h : find? key entries = some value) : ∃ k, (k, value) ∈ entries := by
  induction entries with
  | nil => cases h
  | cons e rest ih =>
    obtain ⟨k, v⟩ := e
    rw [find?] at h
    split at h
    · cases h
      exact ⟨k, List.mem_cons_self⟩
    · obtain ⟨k', hk'⟩ := ih h
      exact ⟨k', List.mem_cons_of_mem _ hk'⟩

theorem mem_of_find? [LawfulBEq α] {key : α} {value : β} {entries : Assoc α β}
    (h : find? key entries = some value) : (key, value) ∈ entries := by
  induction entries with
  | nil => cases h
  | cons e rest ih =>
    obtain ⟨k, v⟩ := e
    rw [find?] at h
    split at h
    · rename_i hk
      cases h
      rw [beq_iff_eq.mp hk]
      exact List.mem_cons_self
    · exact List.mem_cons_of_mem _ (ih h)

theorem find?_append (key : α) (entries others : Assoc α β) :
    find? key (entries ++ others) = (find? key entries).or (find? key others) := by
  induction entries with
  | nil => rfl
  | cons e rest ih =>
    obtain ⟨k, v⟩ := e
    rw [List.cons_append, find?, find?]
    split
    · rfl
    · exact ih

theorem erase_sublist (key : α) (entries : Assoc α β) : (erase key entries).Sublist entries := by
  induction entries with
  | nil => exact List.Sublist.refl _
  | cons e rest ih =>
    obtain ⟨k, v⟩ := e
    rw [erase]
    split
    · exact List.sublist_cons_self _ _
    · exact ih.cons_cons _

theorem mem_erase_of_ne [LawfulBEq α] {key : α} {entries : Assoc α β} {e : α × β}
    (h : e ∈ entries) (hne : e.1 ≠ key) : e ∈ erase key entries := by
  induction entries with
  | nil => cases h
  | cons first rest ih =>
    obtain ⟨k, v⟩ := first
    rw [erase]
    rcases List.mem_cons.mp h with rfl | h
    · rw [if_neg (by rwa [beq_iff_eq])]
      exact List.mem_cons_self
    · split
      · exact h
      · exact List.mem_cons_of_mem _ (ih h)

theorem find?_erase_of_ne [LawfulBEq α] {key other : α} (hne : other ≠ key)
    (entries : Assoc α β) : find? other (erase key entries) = find? other entries := by
  induction entries with
  | nil => rfl
  | cons e rest ih =>
    obtain ⟨k, v⟩ := e
    rw [erase]
    split
    · rename_i hk
      rw [find?, if_neg (by rw [beq_iff_eq, beq_iff_eq.mp hk]; exact Ne.symm hne)]
    · rw [find?, find?, ih]

theorem keys_erase (key : α) (entries : Assoc α β) :
    (erase key entries).map Prod.fst = (entries.map Prod.fst).erase key := by
  induction entries with
  | nil => rfl
  | cons e rest ih =>
    obtain ⟨k, v⟩ := e
    rw [erase, List.map_cons, List.erase_cons]
    split
    · rfl
    · rw [List.map_cons, ih]

theorem find?_eq_none_iff [LawfulBEq α] {key : α} {entries : Assoc α β} :
    find? key entries = none ↔ key ∉ entries.map Prod.fst := by
  induction entries with
  | nil => simp
  | cons e rest ih =>
    obtain ⟨k, v⟩ := e
    by_cases hk : k = key
    · simp [find?, hk]
    · rw [find?, if_neg (by rwa [beq_iff_eq]), ih]
      simp [Ne.symm hk]

/-- Erasing one of distinct keys leaves none. -/
theorem find?_erase_self [LawfulBEq α] {key : α} {entries : Assoc α β}
    (h : (entries.map Prod.fst).Nodup) : find? key (erase key entries) = none := by
  induction entries with
  | nil => rfl
  | cons e rest ih =>
    obtain ⟨k, v⟩ := e
    rw [List.map_cons, List.nodup_cons] at h
    by_cases hk : k = key
    · subst hk
      rw [erase, if_pos (beq_self_eq_true k), find?_eq_none_iff]
      exact h.1
    · have hk' : ¬ (k == key) = true := by rwa [beq_iff_eq]
      rw [erase, if_neg hk', find?, if_neg hk']
      exact ih h.2

/-! ### Keys after writing -/

theorem keys_insert (key : α) (value : β) (entries : Assoc α β) :
    (insert key value entries).map Prod.fst
      = if contains key entries then entries.map Prod.fst else entries.map Prod.fst ++ [key] := by
  induction entries with
  | nil => rfl
  | cons e rest ih =>
    obtain ⟨k, v⟩ := e
    by_cases hk : (k == key) = true
    · simp [insert, contains, find?, hk]
    · rw [insert, if_neg hk, List.map_cons, ih]
      simp only [contains, find?, if_neg hk]
      by_cases hrest : (find? key rest).isSome = true <;> simp [hrest]

theorem contains_iff {key : α} {entries : Assoc α β} :
    contains key entries = true ↔ ∃ e ∈ entries, (e.1 == key) = true := by
  induction entries with
  | nil => simp [contains]
  | cons e rest ih =>
    obtain ⟨k, v⟩ := e
    by_cases hk : (k == key) = true
    · simp [contains, find?, hk]
    · rw [contains, find?, if_neg hk, ← contains, ih]
      simp [hk]

theorem insert_of_forall_ne {key : α} {value : β} {entries : Assoc α β}
    (h : ∀ e ∈ entries, (e.1 == key) = false) :
    insert key value entries = entries ++ [(key, value)] := by
  induction entries with
  | nil => rfl
  | cons e rest ih =>
    obtain ⟨k, v⟩ := e
    have hk : (k == key) = false := h (k, v) List.mem_cons_self
    rw [insert, hk, ih fun e he => h e (List.mem_cons_of_mem _ he)]
    rfl

theorem update_of_pairwise_ne {entries others : Assoc α β}
    (h : ((entries ++ others).map Prod.fst).Pairwise fun a b => (a == b) = false) :
    update entries others = entries ++ others := by
  induction others generalizing entries with
  | nil => simp [update]
  | cons e rest ih =>
    have hne : ∀ x ∈ entries, (x.1 == e.1) = false := by
      rw [List.map_append, List.pairwise_append] at h
      intro x hx
      exact h.2.2 x.1 (List.mem_map_of_mem hx) e.1 List.mem_cons_self
    have hstep : update entries (e :: rest) = update (insert e.1 e.2 entries) rest := rfl
    rw [hstep, insert_of_forall_ne hne, ih]
    · simp
    · simpa using h

theorem mem_keys_update_of_mem {key : α} {entries others : Assoc α β}
    (h : key ∈ entries.map Prod.fst) : key ∈ (update entries others).map Prod.fst := by
  induction others generalizing entries with
  | nil => exact h
  | cons e others ih =>
    refine ih ?_
    rw [keys_insert]
    split
    · exact h
    · exact List.mem_append_left _ h

theorem forall_key_insert {P : α → Prop} {key : α} {value : β} {entries : Assoc α β}
    (h : ∀ e ∈ entries, P e.1) (hkey : P key) : ∀ e ∈ insert key value entries, P e.1 := by
  rw [← List.forall_mem_map (f := Prod.fst), keys_insert]
  have hold : ∀ k ∈ entries.map Prod.fst, P k := List.forall_mem_map.mpr h
  split
  · exact hold
  · exact List.forall_mem_append.mpr ⟨hold, List.forall_mem_singleton.mpr hkey⟩

theorem forall_key_update {P : α → Prop} {entries others : Assoc α β} (h : ∀ e ∈ entries, P e.1)
    (hothers : ∀ e ∈ others, P e.1) : ∀ e ∈ update entries others, P e.1 := by
  induction others generalizing entries with
  | nil => exact h
  | cons e others ih =>
    exact ih (forall_key_insert h (hothers e List.mem_cons_self))
      fun x hx => hothers x (List.mem_cons_of_mem _ hx)

/-- What is written is there, under its key or one that was there before and is the same. -/
theorem exists_key_insert (key : α) (value : β) (entries : Assoc α β) :
    ∃ k ∈ (insert key value entries).map Prod.fst, k = key ∨ (k == key) = true := by
  rw [keys_insert]
  cases hold : contains key entries with
  | true =>
    obtain ⟨e, he, hsame⟩ := contains_iff.mp hold
    exact ⟨e.1, List.mem_map_of_mem he, .inr hsame⟩
  | false => exact ⟨key, List.mem_append_right _ (List.mem_singleton_self _), .inl rfl⟩

theorem exists_key_update (entries : Assoc α β) {others : Assoc α β} {e : α × β}
    (he : e ∈ others) :
    ∃ key ∈ (update entries others).map Prod.fst, key = e.1 ∨ (key == e.1) = true := by
  induction others generalizing entries with
  | nil => cases he
  | cons x others ih =>
    have hstep : update entries (x :: others) = update (insert x.1 x.2 entries) others := rfl
    rw [hstep]
    rcases List.mem_cons.mp he with rfl | he
    · obtain ⟨key, hkey, hsame⟩ := exists_key_insert e.1 e.2 entries
      exact ⟨key, mem_keys_update_of_mem hkey, hsame⟩
    · exact ih _ he

theorem ofEntries_concat (entries : Assoc α β) (e : α × β) :
    ofEntries (entries ++ [e]) = insert e.1 e.2 (ofEntries entries) := by
  rw [ofEntries, update, List.foldl_append]
  rfl

/-- A write leaves all entries before and after those of the key where they are. -/
theorem insert_eq_append {key : α} (hkey : ∀ k, (k == key) = true → k = key) (value : β)
    (entries : Assoc α β) :
    insert key value entries = entries.takeWhile (fun e => !(e.1 == key))
      ++ (key, value) :: (entries.dropWhile fun e => !(e.1 == key)).tail := by
  induction entries with
  | nil => rfl
  | cons e rest ih =>
    obtain ⟨k, v⟩ := e
    rw [insert, List.takeWhile_cons, List.dropWhile_cons]
    by_cases hk : (k == key) = true
    · obtain rfl := hkey k hk
      simp [hk]
    · simp [hk, ih]

/-- Writing entries with distinct keys one by one leaves them as they are. -/
theorem ofEntries_of_pairwise_ne {entries : Assoc α β}
    (h : (entries.map Prod.fst).Pairwise fun a b => (a == b) = false) :
    ofEntries entries = entries :=
  @update_of_pairwise_ne α β _ [] entries h

theorem forall_insert {P : β → Prop} {key : α} {value : β} {entries : Assoc α β}
    (h : ∀ e ∈ entries, P e.2) (hvalue : P value) : ∀ e ∈ insert key value entries, P e.2 := by
  induction entries with
  | nil => simpa [insert] using hvalue
  | cons e rest ih =>
    obtain ⟨hfirst, hrest⟩ := List.forall_mem_cons.mp h
    rw [insert]
    split
    · exact List.forall_mem_cons.mpr ⟨hvalue, hrest⟩
    · exact List.forall_mem_cons.mpr ⟨hfirst, ih hrest⟩

theorem forall_insertNew {P : β → Prop} {key : α} {value : β} {entries : Assoc α β}
    (h : ∀ e ∈ entries, P e.2) (hvalue : P value) : ∀ e ∈ insertNew key value entries, P e.2 := by
  rw [insertNew]
  split
  · exact h
  · exact forall_insert h hvalue

/-- What holds of all values of two lists holds of the values that writing one over the other
leaves. -/
theorem forall_update {P : β → Prop} {entries others : Assoc α β} (h : ∀ e ∈ entries, P e.2)
    (hothers : ∀ e ∈ others, P e.2) : ∀ e ∈ update entries others, P e.2 := by
  induction others generalizing entries with
  | nil => exact h
  | cons e others ih =>
    obtain ⟨hfirst, hrest⟩ := List.forall_mem_cons.mp hothers
    exact ih (forall_insert h hfirst) hrest

theorem forall_ofEntries {P : β → Prop} {entries : Assoc α β} (h : ∀ e ∈ entries, P e.2) :
    ∀ e ∈ ofEntries entries, P e.2 := by
  refine forall_update ?_ h
  intro e he
  cases he

/-! ### Distinct keys -/

/-- No two entries have the same key. -/
def Distinct (entries : Assoc α β) : Prop :=
  (entries.map Prod.fst).Pairwise fun a b => (a == b) = false

instance (entries : Assoc α β) : Decidable (Distinct entries) :=
  inferInstanceAs (Decidable (List.Pairwise _ _))

theorem Distinct.ofEntries_eq {entries : Assoc α β} (h : Distinct entries) :
    ofEntries entries = entries :=
  ofEntries_of_pairwise_ne h

theorem distinct_cons {key : α} {value : β} {rest : Assoc α β} :
    Distinct ((key, value) :: rest) ↔ (∀ e ∈ rest, (key == e.1) = false) ∧ Distinct rest := by
  simp only [Distinct, List.map_cons, List.pairwise_cons, List.forall_mem_map]

theorem Distinct.sublist {entries others : Assoc α β} (h : Distinct entries)
    (hsub : others.Sublist entries) : Distinct others :=
  List.Pairwise.sublist (hsub.map Prod.fst) h

theorem not_contains_iff {key : α} {entries : Assoc α β} :
    contains key entries = false ↔ ∀ e ∈ entries, (e.1 == key) = false := by
  rw [← Bool.not_eq_true, contains_iff]
  simp

theorem Distinct.insert {entries : Assoc α β} (h : Distinct entries) (key : α) (value : β) :
    Distinct (insert key value entries) := by
  rw [Distinct, keys_insert]
  split
  · exact h
  · rename_i hnew
    rw [Bool.not_eq_true, not_contains_iff] at hnew
    rw [List.pairwise_append]
    refine ⟨h, List.pairwise_singleton _ _, fun a ha b hb => ?_⟩
    obtain ⟨e, he, rfl⟩ := List.mem_map.mp ha
    rw [List.mem_singleton.mp hb]
    exact hnew e he

theorem Distinct.update {entries : Assoc α β} (h : Distinct entries) (others : Assoc α β) :
    Distinct (update entries others) := by
  induction others generalizing entries with
  | nil => exact h
  | cons e others ih => exact ih (h.insert e.1 e.2)

/-- Writing entries with distinct keys, each if its key is new, adds those whose keys are new. -/
theorem Distinct.foldl_insertNew {entries : Assoc α β} (h : Distinct entries)
    (own : Assoc α β) :
    entries.foldl (fun found e => insertNew e.1 e.2 found) own
      = own ++ entries.filter fun e => !contains e.1 own := by
  induction entries generalizing own with
  | nil => simp
  | cons e rest ih =>
    obtain ⟨hne, hrest⟩ := distinct_cons.mp h
    rw [List.foldl_cons, ih hrest]
    by_cases hkey : contains e.1 own = true
    · simp [insertNew, hkey]
    · have hadd : insertNew e.1 e.2 own = own ++ [e] := by
        rw [insertNew, if_neg hkey, insert_of_forall_ne]
        exact not_contains_iff.mp (Bool.not_eq_true _ ▸ hkey)
      -- The key that was just written is not among the keys to come.
      have hlater : ∀ x ∈ rest, contains x.1 (own ++ [e]) = contains x.1 own := by
        intro x hx
        simp [contains, find?_append, find?, hne x hx]
      rw [hadd, List.filter_congr fun x hx => congrArg not (hlater x hx)]
      simp [hkey]

theorem distinct_ofEntries (entries : Assoc α β) : Distinct (ofEntries entries) :=
  @Distinct.update α β _ [] List.Pairwise.nil entries

/-! ### Keys up to a partial equivalence -/

variable [PartialEquivBEq α] {entries others : Assoc α β}

/-- Of the entries that are written under one key, the last is found. -/
theorem find?_ofEntries (key : α) (entries : Assoc α β) :
    find? key (ofEntries entries)
      = (entries.filter fun e => e.1 == key).getLast?.map Prod.snd := by
  induction entries using List.reverseRecOn with
  | nil => rfl
  | append_singleton entries e ih =>
    rw [ofEntries_concat, find?_insert, ih, List.filter_append]
    by_cases hkey : (e.1 == key) = true
    · simp [hkey]
    · simp [hkey]

theorem Distinct.perm (h : Distinct entries) (hperm : entries.Perm others) : Distinct others := by
  refine ((hperm.map Prod.fst).pairwise_iff ?_).mp h
  intro a b hab
  rw [BEq.comm]
  exact hab

/-- What is found under a key is the value of an entry with the key. -/
theorem Distinct.find?_eq_some_iff (h : Distinct entries) {key : α} {value : β} :
    find? key entries = some value ↔ ∃ k, (k, value) ∈ entries ∧ (k == key) = true := by
  induction entries with
  | nil => simp
  | cons e rest ih =>
    obtain ⟨k, v⟩ := e
    obtain ⟨hne, hrest⟩ := distinct_cons.mp h
    rw [find?]
    by_cases hk : (k == key) = true
    · rw [if_pos hk]
      constructor
      · rintro ⟨⟩
        exact ⟨k, List.mem_cons_self, hk⟩
      · rintro ⟨k', hmem, hk'⟩
        rcases List.mem_cons.mp hmem with heq | hmem
        · cases heq
          rfl
        -- Another entry with the key would have the key of the first one.
        · have := hne (k', value) hmem
          rw [PartialEquivBEq.trans hk (BEq.symm hk')] at this
          cases this
    · rw [if_neg hk, ih hrest]
      constructor
      · rintro ⟨k', hmem, hk'⟩
        exact ⟨k', List.mem_cons_of_mem _ hmem, hk'⟩
      · rintro ⟨k', hmem, hk'⟩
        rcases List.mem_cons.mp hmem with heq | hmem
        · cases heq
          exact absurd hk' hk
        · exact ⟨k', hmem, hk'⟩

/-- Finding does not depend on the order of distinct keys. -/
theorem find?_perm (h : Distinct entries) (hperm : entries.Perm others) (key : α) :
    find? key entries = find? key others := by
  apply Option.ext
  intro value
  rw [h.find?_eq_some_iff, (h.perm hperm).find?_eq_some_iff]
  simp only [hperm.mem_iff]

theorem exists_mem_of_find?_ofEntries {key : α} {value : β}
    (h : find? key (ofEntries entries) = some value) :
    ∃ e ∈ entries, (e.1 == key) = true ∧ e.2 = value := by
  rw [find?_ofEntries, Option.map_eq_some_iff] at h
  obtain ⟨e, he, hvalue⟩ := h
  obtain ⟨hmem, hkey⟩ := List.mem_filter.mp (List.mem_of_getLast? he)
  exact ⟨e, hmem, hkey, hvalue⟩

theorem contains_ofEntries_of_mem {e : α × β} {key : α} (hmem : e ∈ entries)
    (hkey : (e.1 == key) = true) : contains key (ofEntries entries) = true := by
  rw [contains, find?_ofEntries, Option.isSome_map, List.getLast?_isSome]
  exact List.ne_nil_of_mem (List.mem_filter.mpr ⟨hmem, hkey⟩)

/-- Writing a key that is present replaces its value in its place. -/
theorem Distinct.insert_of_contains (h : Distinct entries) {key : α}
    (hkey : contains key entries = true) (value : β) :
    Assoc.insert key value entries
      = entries.map fun e => (e.1, if e.1 == key then value else e.2) := by
  induction entries with
  | nil => cases hkey
  | cons e rest ih =>
    obtain ⟨k, v⟩ := e
    obtain ⟨hne, hrest⟩ := distinct_cons.mp h
    by_cases hk : (k == key) = true
    · have hothers : ∀ e ∈ rest, (e.1 == key) = false := by
        intro e he
        rw [← Bool.not_eq_true]
        intro hsame
        have := hne e he
        rw [PartialEquivBEq.trans hk (BEq.symm hsame)] at this
        cases this
      have hmap : rest.map (fun e => (e.1, if (e.1 == key) = true then value else e.2)) = rest := by
        rw [List.map_congr_left (g := id) fun e he => by rw [hothers e he]; rfl, List.map_id]
      rw [Assoc.insert, if_pos hk, List.map_cons, if_pos hk, hmap]
    · have hrest' : contains key rest = true := by
        rwa [contains, find?, if_neg hk] at hkey
      rw [Assoc.insert, if_neg hk, List.map_cons, if_neg hk, ih hrest hrest']

omit [PartialEquivBEq α] in
theorem find?_eq_none_of_forall_ne {key : α} (h : ∀ e ∈ entries, (e.1 == key) = false) :
    find? key entries = none := by
  rw [← Option.not_isSome_iff_eq_none, ← contains, Bool.not_eq_true, not_contains_iff]
  exact h

theorem contains_insert (key other : α) (value : β) (entries : Assoc α β) :
    contains other (insert key value entries) = (contains other entries || key == other) := by
  rw [contains, find?_insert, contains]
  by_cases ho : (key == other) = true
  · simp [ho]
  · simp [ho]

/-- Of entries that are written over others, those that are written are found first. -/
theorem Distinct.find?_update (hothers : Distinct others) (key : α) :
    find? key (Assoc.update entries others) = (find? key others).or (find? key entries) := by
  induction others generalizing entries with
  | nil => rfl
  | cons e others ih =>
    obtain ⟨k, v⟩ := e
    obtain ⟨hne, hothers⟩ := distinct_cons.mp hothers
    have hstep : Assoc.update entries ((k, v) :: others)
        = Assoc.update (Assoc.insert k v entries) others := rfl
    rw [hstep, ih hothers, find?_insert, find?]
    by_cases hk : (k == key) = true
    · have hnone : find? key others = none := find?_eq_none_of_forall_ne fun e he => by
        rw [BEq.comm, ← BEq.congr_left hk]
        exact hne e he
      simp [hk, hnone]
    · simp [hk]

/-- Writing entries with distinct keys over others replaces the values of the keys that are there,
and adds the entries whose keys are not. -/
theorem Distinct.update_eq (h : Distinct entries) (hothers : Distinct others) :
    Assoc.update entries others
      = entries.map (fun e => (e.1, (find? e.1 others).getD e.2))
        ++ others.filter fun e => !contains e.1 entries := by
  induction others generalizing entries with
  | nil => simp [Assoc.update]
  | cons e others ih =>
    obtain ⟨key, value⟩ := e
    obtain ⟨hne, hothers⟩ := distinct_cons.mp hothers
    have hstep : Assoc.update entries ((key, value) :: others)
        = Assoc.update (Assoc.insert key value entries) others := rfl
    -- The key is none of those that follow, so the entries that are new stay the same.
    have hfilter : (others.filter fun e => !contains e.1 (Assoc.insert key value entries))
        = others.filter fun e => !contains e.1 entries :=
      List.filter_congr fun e he => by rw [contains_insert, hne e he, Bool.or_false]
    have hnone : ∀ k, (k == key) = true → find? k others = none := by
      intro k hk
      refine find?_eq_none_of_forall_ne fun e he => ?_
      rw [← Bool.not_eq_true]
      intro hsame
      have := hne e he
      rw [BEq.symm (PartialEquivBEq.trans hsame hk)] at this
      cases this
    have hfind : ∀ e : α × β, find? e.1 ((key, value) :: others)
        = if (e.1 == key) = true then some value else find? e.1 others := by
      intro e
      rw [find?, BEq.comm]
    rw [hstep, ih (h.insert key value) hothers, hfilter]
    by_cases hkey : contains key entries = true
    · rw [h.insert_of_contains hkey, List.map_map, List.filter_cons_of_neg (by simp [hkey])]
      congr 1
      refine List.map_congr_left fun e _ => ?_
      simp only [Function.comp, hfind]
      by_cases he : (e.1 == key) = true
      · simp [he, hnone e.1 he]
      · simp [he]
    · rw [Bool.not_eq_true] at hkey
      have hold := not_contains_iff.mp hkey
      rw [insert_of_forall_ne hold, List.map_append, List.filter_cons_of_pos (by simp [hkey]),
        List.append_assoc]
      congr 1
      · refine List.map_congr_left fun e he => ?_
        rw [hfind, if_neg (by rw [hold e he]; simp)]
      · have hlast : find? key others = none := by
          refine find?_eq_none_of_forall_ne fun e he => ?_
          rw [BEq.comm]
          exact hne e he
        simp [hlast]

/-- An entry with the key of another one is that one. -/
theorem Distinct.eq_of_beq (h : Distinct entries) {x y : α × β} (hx : x ∈ entries)
    (hy : y ∈ entries) (hsame : (x.1 == y.1) = true) : x = y := by
  by_contra hne
  have hpairwise : entries.Pairwise fun a b => (a.1 == b.1) = false := List.pairwise_map.mp h
  have hsymm : Std.Symm fun a b : α × β => (a.1 == b.1) = false :=
    ⟨fun a b hab => BEq.comm.trans hab⟩
  rw [hpairwise.forall hx hy hne] at hsame
  cases hsame

section Update

variable (h : Distinct entries) (hothers : Distinct others) {key : α} {value : β}
include h hothers

/-- Entries that are written over others are there, under the keys of those they replace. -/
theorem Distinct.mem_update_of_mem_others (hmem : (key, value) ∈ others) :
    ∃ k, (k, value) ∈ Assoc.update entries others ∧ (k = key ∨ (k == key) = true) := by
  rw [h.update_eq hothers]
  cases hold : contains key entries with
  | false =>
    exact ⟨key, List.mem_append_right _ (List.mem_filter.mpr ⟨hmem, by simp [hold]⟩), .inl rfl⟩
  | true =>
    obtain ⟨⟨k, v⟩, hkv, hk⟩ := contains_iff.mp hold
    have hfind : find? k others = some value :=
      hothers.find?_eq_some_iff.mpr ⟨key, hmem, BEq.symm hk⟩
    refine ⟨k, List.mem_append_left _ (List.mem_map.mpr ⟨(k, v), hkv, ?_⟩), .inr hk⟩
    rw [hfind, Option.getD_some]

/-- Entries over which nothing is written stay. -/
theorem Distinct.mem_update_of_mem (hmem : (key, value) ∈ entries)
    (hfree : ∀ e ∈ others, (e.1 == key) = false) :
    (key, value) ∈ Assoc.update entries others := by
  rw [h.update_eq hothers]
  refine List.mem_append_left _ (List.mem_map.mpr ⟨(key, value), hmem, ?_⟩)
  rw [find?_eq_none_of_forall_ne hfree, Option.getD_none]

/-- There is nothing but what was written, and what nothing was written over. -/
theorem Distinct.mem_of_mem_update (hmem : (key, value) ∈ Assoc.update entries others) :
    (∃ k, (k, value) ∈ others ∧ (key = k ∨ (key == k) = true)) ∨
      ((key, value) ∈ entries ∧ ∀ e ∈ others, (e.1 == key) = false) := by
  rw [h.update_eq hothers] at hmem
  rcases List.mem_append.mp hmem with hmem | hmem
  · obtain ⟨⟨k, v⟩, hkv, heq⟩ := List.mem_map.mp hmem
    cases heq
    cases hfind : find? k others with
    | none =>
      rw [← Option.not_isSome_iff_eq_none, ← contains, Bool.not_eq_true, not_contains_iff] at hfind
      exact .inr ⟨hkv, hfind⟩
    | some v' =>
      obtain ⟨k', hk', hsame⟩ := hothers.find?_eq_some_iff.mp hfind
      exact .inl ⟨k', hk', .inr (BEq.symm hsame)⟩
  · exact .inl ⟨key, (List.mem_filter.mp hmem).1, .inl rfl⟩

end Update

/-- Where keys are the same only if they are equal, nothing is left but entries of the two lists. -/
theorem mem_or_mem_of_mem_update [LawfulBEq α] (h : Distinct entries) (hothers : Distinct others)
    {e : α × β} (he : e ∈ Assoc.update entries others) : e ∈ entries ∨ e ∈ others := by
  rcases h.mem_of_mem_update hothers he with ⟨key, hmem, hsame⟩ | ⟨hmem, -⟩
  · obtain rfl : e.1 = key := hsame.elim id beq_iff_eq.mp
    exact .inr hmem
  · exact .inl hmem

theorem mem_of_mem_ofEntries [LawfulBEq α] {e : α × β} (he : e ∈ ofEntries entries) :
    e ∈ entries := by
  have hfind : find? e.1 (ofEntries entries) = some e.2 :=
    (distinct_ofEntries entries).find?_eq_some_iff.mpr ⟨e.1, he, beq_self_eq_true e.1⟩
  obtain ⟨x, hx, hkey, hvalue⟩ := exists_mem_of_find?_ofEntries hfind
  rwa [← show x = e from Prod.ext (beq_iff_eq.mp hkey) hvalue]

/-- The order of the entries that are written over others decides on the order of what is left, and
on nothing else. -/
theorem Distinct.update_perm {others' : Assoc α β} (h : Distinct entries)
    (hothers : Distinct others) (hperm : others.Perm others') :
    (Assoc.update entries others).Perm (Assoc.update entries others') := by
  rw [h.update_eq hothers, h.update_eq (hothers.perm hperm)]
  simp only [find?_perm hothers hperm]
  exact (hperm.filter _).append_left _

end Assoc

end Rollout
