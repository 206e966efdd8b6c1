/-
Records read from maps.

A record can be read when every field can and no entry is unknown, and it then holds what was read
for each of its keys.  What is read for a key depends on the entries of its two names only.

* `Record.ofMap_eq_ok_iff` — the record that is read from a map;
* `Record.readField_congr` — the entries on which a field depends;
* `Record.unknownEntries_eq_nil` — entries under the names of keys are known.
-/
import Rollout.Proofs.FieldType
import Rollout.Proofs.Value.Plain
import Rollout.Record

namespace Rollout

namespace Record

variable {shape : Shape}

theorem lookup_zip_map (f : CanonicalKey → Value) (keys : List CanonicalKey) (key : CanonicalKey) :
    (keys.zip (keys.map f)).lookup key = if key ∈ keys then some (f key) else none := by
  induction keys with
  | nil => rfl
  | cons k keys ih =>
    rw [List.map_cons, List.zip_cons_cons, List.lookup_cons, ih]
    by_cases hkey : key = k
    · subst hkey
      simp
    · rw [beq_false_of_ne hkey]
      simp [hkey]

theorem field_ofValues_map (f : CanonicalKey → Value) (key : CanonicalKey) :
    (ofValues shape (shape.keys.map f)).field key = if key ∈ shape.keys then f key else .null := by
  simp only [ofValues, lookup_zip_map]
  split <;> rfl

/-- Results for all keys are there exactly when there is a value for each. -/
theorem gather_map_eq_ok_iff_forall {read : CanonicalKey → Except (List Path) Value}
    {keys : List CanonicalKey} {values : List Value} :
    gather (keys.map read) = .ok values ↔
      ∃ f : CanonicalKey → Value, (∀ key ∈ keys, read key = .ok (f key)) ∧ values = keys.map f := by
  rw [gather_eq_ok_iff]
  constructor
  · intro h
    let value : Except (List Path) Value → Value := fun result => result.toOption.getD .null
    have hvalues : values = keys.map (value ∘ read) := by
      have := congrArg (List.map value) h
      rw [List.map_map, List.map_map] at this
      rw [this]
      exact (List.map_id values).symm
    refine ⟨value ∘ read, fun key hkey => ?_, hvalues⟩
    obtain ⟨v, -, hv⟩ := List.mem_map.mp (h ▸ List.mem_map_of_mem (f := read) hkey)
    rw [Function.comp, ← hv]
    rfl
  · rintro ⟨f, hf, rfl⟩
    rw [List.map_map]
    exact List.map_congr_left hf

/-- **Reading a record.**  It can be read when every field can and nothing else is given, and then
holds what was read. -/
theorem ofMap_eq_ok_iff {entries : Attributes} {r : Record shape} :
    ofMap shape entries = .ok r ↔ unknownEntries shape entries = [] ∧
      (∀ key ∈ shape.keys, readField shape entries key = .ok (r.field key)) ∧
      ∀ key, key ∉ shape.keys → r.field key = .null := by
  constructor
  · intro h
    unfold ofMap at h
    split at h
    · rename_i hvalues hunknown
      obtain ⟨f, hf, rfl⟩ := gather_map_eq_ok_iff_forall.mp hvalues
      cases h
      refine ⟨hunknown, fun key hkey => ?_, fun key hkey => ?_⟩
      · rw [field_ofValues_map, if_pos hkey]
        exact hf key hkey
      · rw [field_ofValues_map, if_neg hkey]
    · cases h
    · cases h
  · rintro ⟨hunknown, hread, hnull⟩
    have hvalues := gather_map_eq_ok_iff_forall.mpr ⟨r.field, hread, rfl⟩
    have hr : ofValues shape (shape.keys.map r.field) = r := by
      have hfield : (ofValues shape (shape.keys.map r.field)).field = r.field := by
        funext key
        rw [field_ofValues_map]
        split
        · rfl
        · rename_i hkey
          rw [hnull key hkey]
      cases r
      exact congrArg Record.mk hfield
    simp only [ofMap, hvalues, hunknown, hr]

/-! ### The names of a key -/

theorem givenName?_congr {entries others : Attributes} {key : CanonicalKey}
    (hwire : Assoc.find? (.text key.wireName) entries = Assoc.find? (.text key.wireName) others)
    (hfield : Assoc.find? (.text key.fieldName) entries
      = Assoc.find? (.text key.fieldName) others) :
    givenName? key entries = givenName? key others := by
  unfold givenName? Assoc.contains
  rw [hwire, hfield]

theorem givenName?_eq_some {entries : Attributes} {key : CanonicalKey} {name : String}
    (h : givenName? key entries = some name) : name = key.wireName ∨ name = key.fieldName := by
  unfold givenName? at h
  split at h
  · exact .inl (Option.some.inj h).symm
  · split at h
    · exact .inr (Option.some.inj h).symm
    · cases h

/-- What is read for a key depends on the entries of its two names only. -/
theorem readField_congr {entries others : Attributes} {key : CanonicalKey}
    (hwire : Assoc.find? (.text key.wireName) entries = Assoc.find? (.text key.wireName) others)
    (hfield : Assoc.find? (.text key.fieldName) entries
      = Assoc.find? (.text key.fieldName) others) :
    readField shape entries key = readField shape others key := by
  rw [readField, readField, ← givenName?_congr hwire hfield]
  cases hname : givenName? key entries with
  | none => rfl
  | some name =>
    rcases givenName?_eq_some hname with rfl | rfl
    · simp only [hwire]
    · simp only [hfield]

/-- A field that is given under the name it is sent under. -/
theorem readField_of_find? {entries : Attributes} {key : CanonicalKey} {v : Value}
    (h : Assoc.find? (.text key.wireName) entries = some v) :
    readField shape entries key = below (.name key.wireName) (fit shape key v) := by
  have hname : givenName? key entries = some key.wireName := by
    simp [givenName?, Assoc.contains, h]
  rw [readField, hname]
  simp only [h, Option.getD_some]

/-- Entries under the names that keys are sent under are all known. -/
theorem unknownEntries_eq_nil {entries : Attributes}
    (h : ∀ e ∈ entries, ∃ key ∈ shape.keys, e.1 = .text key.wireName) :
    unknownEntries shape entries = [] := by
  have hgiven : ∀ e ∈ entries,
      ((shape.keys.filterMap (givenName? · entries)).map Value.text).contains e.1 = true := by
    intro e he
    obtain ⟨key, hkey, hname⟩ := h e he
    have hcontains : Assoc.contains (.text key.wireName) entries = true := by
      refine Assoc.contains_iff.mpr ⟨e, he, ?_⟩
      rw [hname, Value.text_beq_text, beq_self_eq_true]
    have hmem : key.wireName ∈ shape.keys.filterMap (givenName? · entries) :=
      List.mem_filterMap.mpr ⟨key, hkey, by rw [givenName?, if_pos hcontains]⟩
    rw [List.contains_iff_exists_mem_beq]
    refine ⟨.text key.wireName, List.mem_map_of_mem hmem, ?_⟩
    rw [hname, Value.text_beq_text, beq_self_eq_true]
  rw [unknownEntries, List.map_eq_nil_iff, List.filter_eq_nil_iff]
  intro e he
  rw [hgiven e he]
  decide

end Record

end Rollout
