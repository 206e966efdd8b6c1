/-
Records made of sorted attributes.

The values of the fields are fitted one by one, and the custom properties get texts as names.  The
order in which sorting left the values and the properties has no say in whether a record can be made
and in what its fields hold, but for the order of the custom properties.

* `Normalization.Sorted` — every value stands under a key of the shape, once;
* `textEntries` — entries with the texts that their names become;
* `Normalization.toRecord_properties` — the custom properties of the record that is made;
* `Normalization.exists_toRecord_perm` — the order of what was sorted does not matter.
-/
import Mathlib.Data.List.Perm.Basic
import Rollout.Proofs.Record
import Rollout.Record.OfAttributes

namespace Rollout

variable {shape : Shape}

/-! ### Custom properties -/

/-- The entries whose names become texts, under those texts. -/
def textEntries (entries : Attributes) : Attributes :=
  entries.filterMap fun e => (convertText e.1).map (·, e.2)

theorem exists_text_of_textEntries {entries : Attributes} :
    ∀ e ∈ textEntries entries, ∃ s, e.1 = .text s := by
  intro e he
  obtain ⟨x, -, hx⟩ := List.mem_filterMap.mp he
  obtain ⟨name, hname, rfl⟩ := Option.map_eq_some_iff.mp hx
  exact exists_text_of_convertText hname

theorem forall₂_textEntries {entries results : Attributes} :
    List.Forall₂ (fun e x => convertText e.1 = some x.1 ∧ FieldType.anything.convert e.2 = .ok x.2)
      entries results ↔
    (∀ e ∈ entries, (convertText e.1).isSome = true) ∧ results = textEntries entries := by
  induction entries generalizing results with
  | nil => simp [textEntries]
  | cons e entries ih =>
    rw [List.forall₂_cons_left_iff, List.forall_mem_cons, textEntries, List.filterMap_cons,
      ← textEntries]
    simp only [ih]
    cases hname : convertText e.1 with
    | none => simp
    | some name =>
      constructor
      · rintro ⟨⟨_, v⟩, rest, ⟨⟨⟩, ⟨⟩⟩, ⟨hall, rfl⟩, rfl⟩
        exact ⟨⟨rfl, hall⟩, rfl⟩
      · rintro ⟨⟨-, hall⟩, rfl⟩
        exact ⟨(name, e.2), _, ⟨rfl, rfl⟩, ⟨hall, rfl⟩, rfl⟩

/-- Custom properties fit when all names can be texts, and are written under these one by one. -/
theorem convert_properties_iff {entries : Attributes} {v : Value} :
    (FieldType.mapOf .anything).convert (.map entries) = .ok v ↔
      (∀ e ∈ entries, (convertText e.1).isSome = true) ∧ v = .ofEntries (textEntries entries) := by
  rw [FieldType.convert_mapOf_iff]
  constructor
  · rintro ⟨_, results, ⟨⟩, hall, rfl⟩
    obtain ⟨hnames, rfl⟩ := forall₂_textEntries.mp hall
    exact ⟨hnames, rfl⟩
  · rintro ⟨hnames, rfl⟩
    exact ⟨entries, _, rfl, forall₂_textEntries.mpr ⟨hnames, rfl⟩, rfl⟩

/-! ### The map of the fields -/

theorem find?_map_text (name : String) (entries : Assoc String Value) :
    Assoc.find? (.text name) (entries.map fun e => (Value.text e.1, e.2))
      = Assoc.find? name entries := by
  induction entries with
  | nil => rfl
  | cons e entries ih =>
    rw [List.map_cons, Assoc.find?, Assoc.find?, ih, Value.text_beq_text]

/-- The names of the custom properties are the names of no other key. -/
theorem names_ne_overflow : ∀ key ∈ shape.keys, key ≠ shape.overflowKey →
    shape.overflowKey.wireName ≠ key.wireName ∧ shape.overflowKey.wireName ≠ key.fieldName := by
  cases shape <;> decide

theorem overflowKey_mem_keys : shape.overflowKey ∈ shape.keys := by
  cases shape <;> decide

theorem wireName_injective {key other : CanonicalKey} (h : key.wireName = other.wireName) :
    key = other := by
  have hnodup : (CanonicalKey.all.map CanonicalKey.wireName).Nodup := by decide
  exact List.inj_on_of_nodup_map hnodup key.mem_all other.mem_all h

/-- What a field is called is what no other key is sent under. -/
theorem eq_of_wireName_eq_fieldName {key other : CanonicalKey}
    (h : other.wireName = key.fieldName) : other = key := by
  by_cases hname : key.fieldName = key.wireName
  · exact wireName_injective (h.trans hname)
  · have hcamel : key = .productId ∨ key = .revenueType := by
      cases key <;> first | exact absurd rfl hname | simp
    have hnone : ∀ other ∈ CanonicalKey.all,
        other.wireName ≠ "product_id" ∧ other.wireName ≠ "revenue_type" := by decide
    rcases hcamel with rfl | rfl
    · exact absurd h (hnone other other.mem_all).1
    · exact absurd h (hnone other other.mem_all).2

namespace Normalization

variable {n m : Normalization}

/-- Values that stand under keys of a shape, each key once, and none for the custom properties. -/
structure Sorted (shape : Shape) (n : Normalization) : Prop where
  accepted : ∀ e ∈ n.canonical, e.1 ∈ shape.keys
  distinct : Assoc.Distinct n.canonical

theorem Sorted.perm (hn : n.Sorted shape) (h : n.canonical.Perm m.canonical) : m.Sorted shape where
  accepted e he := hn.accepted e (h.mem_iff.mpr he)
  distinct := hn.distinct.perm h

theorem find?_fieldMap (name : String) (n : Normalization) :
    Assoc.find? (.text name) (n.fieldMap shape)
      = if shape.overflowKey.wireName == name then some (.map n.overflow)
        else Assoc.find? name n.fields := by
  rw [← Assoc.find?_insert, ← find?_map_text]
  rfl

theorem find?_fields (key : CanonicalKey) (n : Normalization) :
    Assoc.find? key.wireName n.fields = Assoc.find? key n.canonical := by
  show Assoc.find? key.wireName (n.canonical.map fun e => (e.1.wireName, e.2)) = _
  induction n.canonical with
  | nil => rfl
  | cons e rest ih =>
    rw [List.map_cons, Assoc.find?, Assoc.find?, ih]
    by_cases hkey : e.1 = key
    · subst hkey
      simp
    · have hname : e.1.wireName ≠ key.wireName := fun hname => hkey (wireName_injective hname)
      rw [beq_false_of_ne hname, beq_false_of_ne hkey]

theorem find?_fieldName_fields {key : CanonicalKey} (h : Assoc.find? key n.canonical = none) :
    Assoc.find? key.fieldName n.fields = none := by
  rw [Assoc.find?_eq_none_iff] at h ⊢
  intro hname
  rw [fields, List.map_map] at hname
  obtain ⟨e, he, hsame⟩ := List.mem_map.mp hname
  exact h (eq_of_wireName_eq_fieldName hsame ▸ List.mem_map_of_mem he)

/-- The value for a field stands in the map of the fields under the name of its key. -/
theorem find?_fieldMap_wireName {key : CanonicalKey} (hkey : key ∈ shape.keys)
    (hother : key ≠ shape.overflowKey) :
    Assoc.find? (.text key.wireName) (n.fieldMap shape) = Assoc.find? key n.canonical := by
  rw [find?_fieldMap, beq_false_of_ne (names_ne_overflow key hkey hother).1, find?_fields]
  rfl

theorem find?_fields_perm (hn : n.Sorted shape) (h : n.canonical.Perm m.canonical) (name : String) :
    Assoc.find? name n.fields = Assoc.find? name m.fields := by
  have hdistinct : Assoc.Distinct n.fields := by
    rw [Assoc.Distinct, fields, List.map_map, List.pairwise_map]
    refine (List.pairwise_map.mp hn.distinct).imp fun hab => ?_
    rw [beq_eq_false_iff_ne] at hab ⊢
    exact fun hname => hab (wireName_injective hname)
  exact Assoc.find?_perm hdistinct (h.map _) name

theorem unknownEntries_fieldMap (hn : n.Sorted shape) :
    Record.unknownEntries shape (n.fieldMap shape) = [] := by
  refine Record.unknownEntries_eq_nil fun e he => ?_
  obtain ⟨⟨name, v⟩, hmem, rfl⟩ := List.mem_map.mp he
  have hname := List.mem_map_of_mem (f := Prod.fst) hmem
  rw [Assoc.keys_insert] at hname
  have hfields : name ∈ n.fields.map Prod.fst → ∃ key ∈ shape.keys, name = key.wireName := by
    intro h
    rw [fields, List.map_map] at h
    obtain ⟨x, hx, rfl⟩ := List.mem_map.mp h
    exact ⟨x.1, hn.accepted x hx, rfl⟩
  have hkey : ∃ key ∈ shape.keys, name = key.wireName := by
    split at hname
    · exact hfields hname
    · rcases List.mem_append.mp hname with hold | hnew
      · exact hfields hold
      · exact ⟨_, overflowKey_mem_keys, List.mem_singleton.mp hnew⟩
  obtain ⟨key, hkey, rfl⟩ := hkey
  exact ⟨key, hkey, rfl⟩

/-! ### Fields -/

/-- The fields are read from the values under the names of their keys. -/
theorem readField_fieldMap {key : CanonicalKey} (hkey : key ∈ shape.keys)
    (hother : key ≠ shape.overflowKey) : Record.readField shape (n.fieldMap shape) key
      = Record.readField shape (n.fields.map fun e => (Value.text e.1, e.2)) key := by
  obtain ⟨hwire, hfield⟩ := names_ne_overflow key hkey hother
  refine Record.readField_congr ?_ ?_
  · rw [find?_fieldMap, beq_false_of_ne hwire, find?_map_text]
    rfl
  · rw [find?_fieldMap, beq_false_of_ne hfield, find?_map_text]
    rfl

theorem readField_perm (hn : n.Sorted shape) (h : n.canonical.Perm m.canonical) {key : CanonicalKey}
    (hkey : key ∈ shape.keys) (hother : key ≠ shape.overflowKey) :
    Record.readField shape (n.fieldMap shape) key
      = Record.readField shape (m.fieldMap shape) key := by
  rw [readField_fieldMap hkey hother, readField_fieldMap hkey hother]
  refine Record.readField_congr ?_ ?_ <;>
    rw [find?_map_text, find?_map_text, find?_fields_perm hn h]

/-- The field of a value is fitted from it. -/
theorem readField_of_value {key : CanonicalKey} (hkey : key ∈ shape.keys)
    (hother : key ≠ shape.overflowKey) {v : Value} (h : Assoc.find? key n.canonical = some v) :
    Record.readField shape (n.fieldMap shape) key
      = below (.name key.wireName) (Record.fit shape key v) :=
  Record.readField_of_find? ((find?_fieldMap_wireName hkey hother).trans h)

/-- A field without a value is what it is by default, if it may be left out. -/
theorem readField_of_unset {key : CanonicalKey} (hkey : key ∈ shape.keys)
    (hother : key ≠ shape.overflowKey) (h : Assoc.find? key n.canonical = none) :
    Record.readField shape (n.fieldMap shape) key
      = (shape.default? key).elim (.error [[.name key.wireName]]) .ok := by
  have hwire := (find?_fieldMap_wireName (n := n) hkey hother).trans h
  have hfield : Assoc.find? (.text key.fieldName) (n.fieldMap shape) = none := by
    rw [find?_fieldMap, beq_false_of_ne (names_ne_overflow key hkey hother).2]
    exact find?_fieldName_fields h
  have hgiven : Record.givenName? key (n.fieldMap shape) = none := by
    rw [Record.givenName?, Assoc.contains, Assoc.contains, hwire, hfield]
    rfl
  rw [Record.readField, hgiven]
  cases shape.default? key <;> rfl

/-- The custom properties are fitted from those that were sorted out. -/
theorem readField_overflow : Record.readField shape (n.fieldMap shape) shape.overflowKey
    = below (.name shape.overflowKey.wireName)
        ((FieldType.mapOf .anything).convert (.map n.overflow)) := by
  have hfind : Assoc.find? (.text shape.overflowKey.wireName) (n.fieldMap shape)
      = some (.map n.overflow) := by
    rw [find?_fieldMap, beq_self_eq_true]
    rfl
  have htype : shape.fieldType shape.overflowKey = .mapOf .anything := by
    cases shape <;> rfl
  rw [Record.readField_of_find? hfind, ← htype]
  rfl

theorem readField_properties {v : Value} :
    Record.readField shape (n.fieldMap shape) shape.overflowKey = .ok v ↔
      (∀ e ∈ n.overflow, (convertText e.1).isSome = true) ∧
        v = .ofEntries (textEntries n.overflow) := by
  rw [readField_overflow, below_eq_ok_iff, convert_properties_iff]

theorem toRecord_eq_ok_iff {r : Record shape} :
    n.toRecord shape = .ok r ↔ Record.ofMap shape (n.fieldMap shape) = .ok r := by
  unfold toRecord
  cases Record.ofMap shape (n.fieldMap shape) <;> simp

/-- The custom properties of a record are those that were sorted out, with texts as names. -/
theorem toRecord_properties {r : Record shape} (h : n.toRecord shape = .ok r) :
    r.field shape.overflowKey = .ofEntries (textEntries n.overflow) :=
  (readField_properties.mp ((Record.ofMap_eq_ok_iff.mp (toRecord_eq_ok_iff.mp h)).2.1 _
    overflowKey_mem_keys)).2

/-- The names of the custom properties can be texts. -/
theorem toRecord_names {r : Record shape} (h : n.toRecord shape = .ok r) :
    ∀ e ∈ n.overflow, (convertText e.1).isSome = true :=
  (readField_properties.mp ((Record.ofMap_eq_ok_iff.mp (toRecord_eq_ok_iff.mp h)).2.1 _
    overflowKey_mem_keys)).1

/-- A field is fitted from the value that was sorted for it, and unset if there is none. -/
theorem toRecord_field {r : Record shape} (h : n.toRecord shape = .ok r) {key : CanonicalKey}
    (hkey : key ∈ shape.keys) (hother : key ≠ shape.overflowKey) :
    (∀ v, Assoc.find? key n.canonical = some v → Record.fit shape key v = .ok (r.field key)) ∧
      (Assoc.find? key n.canonical = none → shape.default? key = some (r.field key)) := by
  have hread := (Record.ofMap_eq_ok_iff.mp (toRecord_eq_ok_iff.mp h)).2.1 key hkey
  constructor
  · intro v hv
    rwa [readField_of_value hkey hother hv, below_eq_ok_iff] at hread
  · intro hnone
    rw [readField_of_unset hkey hother hnone] at hread
    cases hdefault : shape.default? key with
    | none =>
      rw [hdefault] at hread
      cases hread
    | some v =>
      rw [hdefault] at hread
      exact congrArg some (Except.ok.inj hread)

/-- **Records do not see the order of what was sorted.**  If a record can be made in one order it
can be made in another one, with the same fields but for the custom properties. -/
theorem exists_toRecord_perm (hn : n.Sorted shape) (hcanonical : n.canonical.Perm m.canonical)
    (hoverflow : n.overflow.Perm m.overflow) {a : Record shape} (h : n.toRecord shape = .ok a) :
    ∃ b : Record shape, m.toRecord shape = .ok b ∧
      ∀ key, key ≠ shape.overflowKey → a.field key = b.field key := by
  obtain ⟨-, hread, hnull⟩ := Record.ofMap_eq_ok_iff.mp (toRecord_eq_ok_iff.mp h)
  refine ⟨a.set shape.overflowKey (.ofEntries (textEntries m.overflow)), ?_, ?_⟩
  · rw [toRecord_eq_ok_iff, Record.ofMap_eq_ok_iff]
    refine ⟨unknownEntries_fieldMap (hn.perm hcanonical), fun key hkey => ?_, fun key hkey => ?_⟩
    · by_cases hother : key = shape.overflowKey
      · subst hother
        have hnames := (readField_properties.mp (hread _ hkey)).1
        refine readField_properties.mpr ⟨fun e he => hnames e (hoverflow.mem_iff.mpr he), ?_⟩
        simp only [Record.set, if_true]
      · rw [← readField_perm hn hcanonical hkey hother, hread key hkey]
        simp only [Record.set, if_neg hother]
    · have hother : key ≠ shape.overflowKey := by
        rintro rfl
        exact hkey overflowKey_mem_keys
      simp only [Record.set, if_neg hother, hnull key hkey]
  · intro key hother
    simp only [Record.set, if_neg hother]

end Normalization

end Rollout
