/-
When sorted attributes become a record.

A record is made of values that sorting left, alone or put together, so every name is that of a field
and every field is given at most once.  What is left to go wrong are the values: one that does not fit
its field, or a custom property whose name cannot be a text.  A record that cannot be made is reported
with the names of exactly those fields; one that can holds in each field what its value becomes.

* `Shape.Fits` — what a value becomes in the field of a key;
* `Normalization.Gathered` — attributes sorted for a shape, and what is put together from them;
* `Normalization.Unfit` — the fields that are given something that does not fit;
* `readField_eq_error_iff`, `readField_paths` — a field cannot be read exactly when it is one of these;
* `toRecord_eq_error_iff` — the report, in terms of the fields;
* `exists_buildOccurrence_error_iff` — which events make no occurrence;
* `toRecord_fails_by_values` — when a record can be made, and what it then holds.
-/
import Rollout.Proofs.Normalization.Fixpoint

namespace Rollout

open Rollout.Text

variable {shape : Shape}

/-! ### Values that fit -/

/-- What a value becomes in the field of a key.  Null stays null where the field may be null. -/
def Shape.Fits (shape : Shape) (key : CanonicalKey) (v w : Value) : Prop :=
  (v = .null ∧ shape.isNullable key = true ∧ w = .null) ∨ (shape.fieldType key).Converts v w

theorem fit_eq_ok_iff {key : CanonicalKey} {v w : Value} :
    Record.fit shape key v = .ok w ↔ shape.Fits key v w := by
  rw [Record.fit, Shape.Fits, ← FieldType.convert_eq_ok_iff]
  split
  · rename_i hnull
    obtain ⟨hv, hnullable⟩ := Bool.and_eq_true_iff.mp hnull
    cases v with
    | null =>
      -- Whatever the type of the field, null becomes null.
      have hconvert : (shape.fieldType key).convert .null = .ok w → w = .null :=
        fun h => (FieldType.convert_eq_ok_iff.mp h).of_null
      constructor
      · intro h
        exact .inl ⟨rfl, hnullable, (Except.ok.inj h).symm⟩
      · rintro (⟨-, -, rfl⟩ | h)
        · rfl
        · rw [hconvert h]
    | _ => cases hv
  · rename_i hnull
    constructor
    · exact .inr
    · rintro (⟨rfl, hnullable, -⟩ | h)
      · exact absurd hnullable hnull
      · exact h

theorem fit_ne_nil {key : CanonicalKey} {v : Value} {paths : List Path}
    (h : Record.fit shape key v = .error paths) : paths ≠ [] := by
  rw [Record.fit] at h
  split at h
  · cases h
  · exact FieldType.convert_ne_nil h

/-- A name that can be a text: a text, or its octets in UTF-8. -/
def Value.IsText (name : Value) : Prop :=
  (∃ s, name = .text s) ∨ ∃ octets cs, name = .bytes octets ∧ decodeUtf8 octets = .ok cs

theorem convertText_isSome_iff {name : Value} : (convertText name).isSome = true ↔ name.IsText := by
  cases name with
  | text s => simp [convertText, Value.IsText]
  | bytes octets =>
    cases hdecode : decodeUtf8 octets <;>
      simp [convertText, Value.IsText, hdecode, Except.toOption]
  | _ => simp [convertText, Value.IsText]

/-- Properties with texts for names keep their names. -/
theorem textEntries_of_texts {entries : Attributes} (h : ∀ e ∈ entries, ∃ s, e.1 = .text s) :
    textEntries entries = entries := by
  have hkept : ∀ e ∈ entries, (convertText e.1).map (·, e.2) = some e := by
    intro e he
    obtain ⟨s, hs⟩ := h e he
    rw [hs, convertText, Option.map_some, ← hs]
  exact (List.filterMap_congr hkept).trans List.filterMap_some

namespace Normalization

variable {n m : Normalization}

/-- Attributes sorted for a shape, or such results put together, or with a value for a field put
among them. -/
inductive Gathered (shape : Shape) : Normalization → Prop
  | sorted (table : AliasTable) (attributes : Attributes) :
      Gathered shape (normalize table shape attributes)
  | merged {n m : Normalization} (hn : Gathered shape n) (hm : Gathered shape m) :
      Gathered shape (n.merge m)
  | put {n : Normalization} (hn : Gathered shape n) (key : CanonicalKey) (value : Value)
      (haccepts : shape.accepts key = true) (hother : key ≠ shape.overflowKey)
      (hplaced : misplaced key value = false) : Gathered shape (n.put key value)

theorem Gathered.settled (hn : n.Gathered shape) : n.Settled shape := by
  induction hn with
  | sorted table attributes => exact settled_normalize table shape attributes
  | merged _ _ ihn ihm => exact ihn.merge ihm
  | put _ key value haccepts hother hplaced ih => exact ih.put haccepts hother hplaced

/-- The attributes of an event are put together in this way, and its type is always set. -/
theorem gathered_normalizeEvent (table : AliasTable) (event : Event) :
    (normalizeEvent table event).Gathered .occurrence ∧
      Assoc.contains .eventType (normalizeEvent table event).canonical = true := by
  constructor
  · refine .put ?_ .eventType _ rfl (by decide) rfl
    have hmerged : (if event.details.isEmpty then normalize table .occurrence event.attributes
        else (normalize table .occurrence event.attributes).merge
          (normalize table .occurrence event.details)).Gathered .occurrence := by
      split
      · exact .sorted table event.attributes
      · exact .merged (.sorted table event.attributes) (.sorted table event.details)
    split
    · exact .put hmerged .revenue _ rfl (by decide) rfl
    · exact hmerged
  · show Assoc.contains _ (Assoc.insert _ _ _) = true
    rw [Assoc.contains_insert, beq_self_eq_true, Bool.or_true]

/-- The fields that are given something that does not fit: a value that the field cannot hold, or
among the custom properties a name that cannot be a text. -/
inductive Unfit (shape : Shape) (n : Normalization) : CanonicalKey → Prop
  | value (key : CanonicalKey) (v : Value) (h : (key, v) ∈ n.canonical)
      (bad : ∀ w, ¬ shape.Fits key v w) : Unfit shape n key
  | name (e : Value × Value) (h : e ∈ n.overflow) (bad : ¬ e.1.IsText) :
      Unfit shape n shape.overflowKey

/-! ### Fields that cannot be read -/

section Settled

variable (hn : n.Settled shape)
  (htype : shape = .occurrence → Assoc.contains .eventType n.canonical = true)
include hn htype

omit hn in
/-- A field that may not be left out has a value. -/
theorem default?_of_unset {key : CanonicalKey} (hkey : key ∈ shape.keys)
    (hother : key ≠ shape.overflowKey) (h : Assoc.find? key n.canonical = none) :
    shape.default? key = some .null := by
  rw [Shape.default?, if_neg hother, if_neg ?_]
  rintro rfl
  have hshape : shape = .occurrence := by
    cases shape with
    | subject => exact absurd hkey (by decide)
    | occurrence => rfl
  have hset := htype hshape
  rw [Assoc.contains, h] at hset
  cases hset

/-- A field cannot be read exactly when it is given something that does not fit. -/
theorem readField_eq_error_iff {key : CanonicalKey} (hkey : key ∈ shape.keys) :
    (∃ paths, Record.readField shape (n.fieldMap shape) key = .error paths) ↔ n.Unfit shape key := by
  have herror : ∀ result : Except (List Path) Value,
      (∃ paths, result = .error paths) ↔ ∀ v, result ≠ .ok v := by
    intro result
    cases result <;> simp
  rw [herror]
  by_cases hother : key = shape.overflowKey
  · subst hother
    simp only [ne_eq, readField_properties, convertText_isSome_iff]
    constructor
    · intro h
      by_contra hfit
      exact h _ ⟨fun e he => by_contra fun hbad => hfit (.name e he hbad), rfl⟩
    · rintro (⟨_, v, hmem, -⟩ | ⟨e, he, hbad⟩)
      · exact absurd rfl (hn.field _ hmem)
      · rintro v ⟨hnames, -⟩
        exact hbad (hnames e he)
  · cases hfind : Assoc.find? key n.canonical with
    | none =>
      rw [readField_of_unset hkey hother hfind, default?_of_unset htype hkey hother hfind]
      constructor
      · intro h
        exact absurd rfl (h .null)
      · rintro (⟨_, v, hmem, -⟩ | -)
        · rw [hn.distinct.find?_eq_some_iff.mpr ⟨key, hmem, beq_self_eq_true key⟩] at hfind
          cases hfind
        · exact absurd rfl hother
    | some v =>
      simp only [readField_of_value hkey hother hfind, ne_eq, below_eq_ok_iff, fit_eq_ok_iff]
      constructor
      · exact .value key v (Assoc.mem_of_find? hfind)
      · rintro (⟨_, v', hmem, hbad⟩ | -)
        -- There is one value for the field.
        · rw [hn.distinct.find?_eq_some_iff.mpr ⟨key, hmem, beq_self_eq_true key⟩] at hfind
          cases hfind
          exact hbad
        · exact absurd rfl hother

omit hn in
/-- What is wrong with a field is reported below its name. -/
theorem readField_paths {key : CanonicalKey} (hkey : key ∈ shape.keys) {paths : List Path}
    (h : Record.readField shape (n.fieldMap shape) key = .error paths) :
    paths ≠ [] ∧ ∀ path ∈ paths, ∃ rest, path = .name key.wireName :: rest := by
  have hbelow : ∀ {result : Except (List Path) Value}, below (.name key.wireName) result = .error paths →
      (∀ more, result = .error more → more ≠ []) →
      paths ≠ [] ∧ ∀ path ∈ paths, ∃ rest, path = .name key.wireName :: rest := by
    intro result hresult hne
    obtain ⟨more, hmore, rfl⟩ := below_eq_error_iff.mp hresult
    refine ⟨by simpa using hne more hmore, fun path hpath => ?_⟩
    obtain ⟨rest, -, rfl⟩ := List.mem_map.mp hpath
    exact ⟨rest, rfl⟩
  by_cases hother : key = shape.overflowKey
  · subst hother
    rw [readField_overflow] at h
    exact hbelow h fun _ => FieldType.convert_ne_nil
  · cases hfind : Assoc.find? key n.canonical with
    | none =>
      rw [readField_of_unset hkey hother hfind, default?_of_unset htype hkey hother hfind] at h
      cases h
    | some v =>
      rw [readField_of_value hkey hother hfind] at h
      exact hbelow h fun _ => fit_ne_nil

/-! ### Records -/

omit htype in
/-- A record cannot be made exactly when a field cannot be read, and the report has all that is wrong
with the fields. -/
theorem toRecord_eq_error_iff {f : Failure} :
    n.toRecord shape = .error f ↔
      (∃ key ∈ shape.keys, ∃ more, Record.readField shape (n.fieldMap shape) key = .error more) ∧
      ∃ paths, paths = shape.keys.flatMap
          (fun key => faults (Record.readField shape (n.fieldMap shape) key)) ∧
        f = .invalidContext ("context cannot be projected onto " ++ shape.phrase ++ ": "
          ++ toString paths.length ++ " invalid field(s)") n
          (some (.invalid shape.recordName paths)) := by
  have hunknown := unknownEntries_fieldMap hn.toSorted
  rw [toRecord, Record.ofMap, hunknown]
  cases hgather : gather (shape.keys.map (Record.readField shape (n.fieldMap shape))) with
  | ok values =>
    rw [gather_eq_ok_iff] at hgather
    simp only [reduceCtorEq, false_iff, not_and]
    rintro ⟨key, hkey, more, hmore⟩
    have hmem := List.mem_map_of_mem (f := Record.readField shape (n.fieldMap shape)) hkey
    rw [hgather, hmore] at hmem
    obtain ⟨_, -, h⟩ := List.mem_map.mp hmem
    cases h
  | error paths =>
    obtain ⟨⟨more, hmore⟩, rfl⟩ := gather_eq_error_iff.mp hgather
    obtain ⟨key, hkey, hread⟩ := List.mem_map.mp hmore
    simp only [List.append_nil, Except.error.injEq, List.flatMap_map, exists_eq_left]
    constructor
    · intro h
      exact ⟨⟨key, hkey, more, hread⟩, h.symm⟩
    · rintro ⟨-, h⟩
      exact h.symm

end Settled

omit shape in
theorem Unfit.mem_keys {shape : Shape} (hn : n.Settled shape) {key : CanonicalKey}
    (h : n.Unfit shape key) : key ∈ shape.keys := by
  cases h with
  | value _ v hmem _ => exact hn.accepted _ hmem
  | name e _ _ => exact overflowKey_mem_keys

/-- The report on a record that cannot be made names the fields that are given something that does not
fit, all of them and no others. -/
theorem toRecord_report (hn : n.Settled shape)
    (htype : shape = .occurrence → Assoc.contains .eventType n.canonical = true) {f : Failure}
    (h : n.toRecord shape = .error f) :
    ∃ message paths, f = .invalidContext message n (some (.invalid shape.recordName paths)) ∧
      (∀ path ∈ paths, ∃ key rest, path = .name key.wireName :: rest ∧ n.Unfit shape key) ∧
      ∀ key, n.Unfit shape key → ∃ rest, .name key.wireName :: rest ∈ paths := by
  obtain ⟨-, paths, rfl, rfl⟩ := (toRecord_eq_error_iff hn).mp h
  refine ⟨_, _, rfl, fun path hpath => ?_, fun key hunfit => ?_⟩
  · obtain ⟨key, hkey, hfault⟩ := List.mem_flatMap.mp hpath
    cases hread : Record.readField shape (n.fieldMap shape) key with
    | ok v =>
      rw [hread] at hfault
      cases hfault
    | error paths =>
      rw [hread] at hfault
      obtain ⟨rest, rfl⟩ := (readField_paths htype hkey hread).2 path hfault
      exact ⟨key, rest, rfl, (readField_eq_error_iff hn htype hkey).mp ⟨paths, hread⟩⟩
  · have hkey := hunfit.mem_keys hn
    obtain ⟨paths, hread⟩ := (readField_eq_error_iff hn htype hkey).mpr hunfit
    obtain ⟨hne, hbelow⟩ := readField_paths htype hkey hread
    obtain ⟨path, hpath⟩ := List.exists_mem_of_ne_nil paths hne
    obtain ⟨rest, rfl⟩ := hbelow path hpath
    refine ⟨rest, List.mem_flatMap.mpr ⟨key, hkey, ?_⟩⟩
    rw [hread]
    exact hpath

/-- A record holds in each field what the value for it becomes, and null where there is none. -/
theorem toRecord_holds (hn : n.Settled shape)
    (htype : shape = .occurrence → Assoc.contains .eventType n.canonical = true) {r : Record shape}
    (h : n.toRecord shape = .ok r) :
    (∀ key v, (key, v) ∈ n.canonical → shape.Fits key v (r.field key)) ∧
      (∀ key, key ≠ shape.overflowKey → Assoc.contains key n.canonical = false →
        r.field key = .null) ∧
      ((∀ e ∈ n.overflow, ∃ s, e.1 = .text s) →
        r.field shape.overflowKey = .map n.overflow) := by
  refine ⟨fun key v hmem => ?_, fun key hother hunset => ?_, fun htexts => ?_⟩
  · have hfind := hn.distinct.find?_eq_some_iff.mpr ⟨key, hmem, beq_self_eq_true key⟩
    exact fit_eq_ok_iff.mp ((toRecord_field h (hn.accepted _ hmem) (hn.field _ hmem)).1 v hfind)
  · have hfind : Assoc.find? key n.canonical = none := by
      rwa [Assoc.contains, Option.isSome_eq_false_iff, Option.isNone_iff_eq_none] at hunset
    by_cases hkey : key ∈ shape.keys
    · have hdefault := (toRecord_field h hkey hother).2 hfind
      rw [default?_of_unset htype hkey hother hfind] at hdefault
      exact (Option.some.inj hdefault).symm
    · exact (Record.ofMap_eq_ok_iff.mp (toRecord_eq_ok_iff.mp h)).2.2 key hkey
  · rw [toRecord_properties h, textEntries_of_texts htexts, Value.ofEntries,
      hn.properties.ofEntries_eq]

/-- A record cannot be made exactly when something does not fit. -/
theorem exists_toRecord_error_iff (hn : n.Settled shape)
    (htype : shape = .occurrence → Assoc.contains .eventType n.canonical = true) :
    (∃ f, n.toRecord shape = .error f) ↔ ∃ key, n.Unfit shape key := by
  constructor
  · rintro ⟨f, hf⟩
    obtain ⟨⟨key, hkey, hread⟩, -⟩ := (toRecord_eq_error_iff hn).mp hf
    exact ⟨key, (readField_eq_error_iff hn htype hkey).mp hread⟩
  · rintro ⟨key, hunfit⟩
    have hkey := hunfit.mem_keys hn
    obtain ⟨paths, hread⟩ := (readField_eq_error_iff hn htype hkey).mpr hunfit
    exact ⟨_, (toRecord_eq_error_iff hn).mpr ⟨⟨key, hkey, paths, hread⟩, _, rfl, rfl⟩⟩

/-- An event makes an occurrence, if no hook is in the way, unless a value of it does not fit. -/
theorem exists_buildOccurrence_error_iff {σ : Type} (table : AliasTable) (event : Event) (w : σ) :
    (∃ f, (buildOccurrence table none event w).1 = .error f) ↔
      ∃ key, (normalizeEvent table event).Unfit .occurrence key := by
  obtain ⟨hgathered, htype⟩ := gathered_normalizeEvent table event
  rw [← exists_toRecord_error_iff hgathered.settled fun _ => htype, buildOccurrence]
  cases (normalizeEvent table event).toRecord .occurrence <;> simp

/-- **Only values keep a record from being made.**  From attributes that were sorted, alone or put
together, a record can be made unless a value does not fit its field or a custom property has a name
that cannot be a text; an occurrence needs its type besides.  If it cannot, the report names the fields
at fault and no others.  If it can, each field holds what its value becomes and is unset without one,
and the custom properties are those that were sorted out if texts are their names. -/
theorem toRecord_fails_by_values (hn : n.Gathered shape)
    (htype : shape = .occurrence → Assoc.contains .eventType n.canonical = true) :
    ((∃ f, n.toRecord shape = .error f) ↔ ∃ key, n.Unfit shape key) ∧
      (∀ f, n.toRecord shape = .error f →
        ∃ message paths, f = .invalidContext message n (some (.invalid shape.recordName paths)) ∧
          (∀ path ∈ paths, ∃ key rest, path = .name key.wireName :: rest ∧ n.Unfit shape key) ∧
          ∀ key, n.Unfit shape key → ∃ rest, .name key.wireName :: rest ∈ paths) ∧
      ∀ r, n.toRecord shape = .ok r →
        (∀ key v, (key, v) ∈ n.canonical → shape.Fits key v (r.field key)) ∧
        (∀ key, key ≠ shape.overflowKey → Assoc.contains key n.canonical = false →
          r.field key = .null) ∧
        ((∀ e ∈ n.overflow, ∃ s, e.1 = .text s) →
          r.field shape.overflowKey = .map n.overflow) := by
  have hsettled := hn.settled
  exact ⟨exists_toRecord_error_iff hsettled htype, fun f => toRecord_report hsettled htype,
    fun r => toRecord_holds hsettled htype⟩

/-- A number is no platform, while octets can be one; and a name that is no text cannot be that of a
custom property. -/
theorem toRecord_fails_by_values_platform :
    let table : AliasTable := [("os", .platform), ("user_id", .userId)]
    let context := normalize table .occurrence [(.text "os", .bytes [119, 101, 98]), (.text "a", .int 1)]
    let details := normalize table .occurrence [(.text "os", .int 7), (.bool true, .int 2)]
    let good := context.put .eventType (.text "click")
    let bad := (context.merge details).put .eventType (.text "click")
    (∃ r, good.toRecord .occurrence = .ok r ∧ r.field .platform = .text "web" ∧
      r.field .userId = .null ∧ r.field .eventProperties = .map [(.text "a", .int 1)]) ∧
    ∃ f, bad.toRecord .occurrence = .error f := by
  intro table context details good bad
  have hgood : good.Gathered .occurrence :=
    .put (.sorted table _) .eventType _ rfl (by decide) rfl
  have hbad : bad.Gathered .occurrence :=
    .put (.merged (.sorted table _) (.sorted table _)) .eventType _ rfl (by decide) rfl
  obtain ⟨hfails, -, hfields⟩ := toRecord_fails_by_values hgood fun _ => rfl
  have hcanonical : good.canonical = [(.platform, .bytes [119, 101, 98]), (.eventType, .text "click")] :=
    rfl
  have hoverflow : good.overflow = [(.text "a", .int 1)] := rfl
  have hfits : ∀ key, ¬ good.Unfit .occurrence key := by
    rintro _ (⟨key, v, hmem, hunfit⟩ | ⟨e, he, hname⟩)
    · rw [hcanonical] at hmem
      rcases List.mem_pair.mp hmem with h | h
      · cases h
        exact hunfit (.text "web") (.inr rfl)
      · cases h
        exact hunfit (.text "click") (.inr rfl)
    · rw [hoverflow] at he
      obtain rfl := List.mem_singleton.mp he
      exact hname (.inl ⟨"a", rfl⟩)
  constructor
  · cases hr : good.toRecord .occurrence with
    | error f =>
      obtain ⟨key, hunfit⟩ := hfails.mp ⟨f, hr⟩
      exact absurd hunfit (hfits key)
    | ok r =>
      obtain ⟨hvalues, hunset, hproperties⟩ := hfields r hr
      refine ⟨r, rfl, ?_, hunset .userId (by decide) rfl, hproperties ?_⟩
      · have hmem : (CanonicalKey.platform, Value.bytes [119, 101, 98]) ∈ good.canonical :=
          List.mem_cons_self
        rcases hvalues _ _ hmem with ⟨h, -⟩ | h
        · cases h
        · exact (Option.some.inj h).symm
      · intro e he
        rw [hoverflow] at he
        obtain rfl := List.mem_singleton.mp he
        exact ⟨"a", rfl⟩
  · have hmem : (CanonicalKey.platform, Value.int 7) ∈ bad.canonical := List.mem_cons_self
    refine (toRecord_fails_by_values hbad fun _ => rfl).1.mpr ⟨.platform, .value _ _ hmem ?_⟩
    rintro w (⟨h, -⟩ | h)
    · cases h
    · cases h

end Normalization

end Rollout
