/-
Properties that values share with their parts.

A property of this kind holds of a list when it holds of the items, of a map when it holds of the
values, and the other way round.  Fitting a value to a type made of texts, lists and maps takes the
value apart and puts it together again, so such a property is kept.

* `Value.Hereditary` — properties of this kind;
* `Value.hereditary_plain`, `Value.hereditary_reducible` — being plain, and having a reduction;
* `Value.Hereditary.convert`, `Value.Hereditary.readField` — what was fitted keeps the property.
-/
import Rollout.Proofs.Dump
import Rollout.Record

namespace Rollout

namespace Value

/-- A property that texts have and that values share with their parts. -/
structure Hereditary (P : Value → Prop) : Prop where
  null : P .null
  text (s : String) : P (.text s)
  items {v : Value} {items : List Value} (h : listItems? v = some items) (hv : P v) :
    ∀ w ∈ items, P w
  list {items : List Value} (h : ∀ w ∈ items, P w) : P (.list items)
  values {entries : Attributes} (h : P (.map entries)) : ∀ e ∈ entries, P e.2
  map {entries : Attributes} (named : Named entries) (h : ∀ e ∈ entries, P e.2) : P (.map entries)

theorem hereditary_plain : Hereditary Plain where
  null := .null
  text := .text
  items h hv := by
    cases hv with
    | list items hitems =>
      cases h
      exact hitems
    | _ => cases h
  list := .list _
  values h := h.values
  map := .map _

theorem hereditary_reducible : Hereditary Reducible where
  null := ⟨.null, rfl⟩
  text s := ⟨.text s, rfl⟩
  items h hv := (reducible_iff_of_listItems? h).mp hv
  list h := (reducible_iff_of_listItems? rfl).mpr h
  values h e he := (reducible_map_iff.mp h e he).2
  map hnamed h := by
    refine reducible_map_iff.mpr fun e he => ⟨?_, h e he⟩
    obtain ⟨s, hs⟩ := hnamed.1 e he
    exact ⟨s, by rw [hs, dumpKey]⟩

end Value

/-- Whether a type is made of texts, lists and maps, so that fitting changes no other values. -/
def FieldType.keepsParts : FieldType → Bool
  | .text | .anything => true
  | .listOf item | .mapOf item => item.keepsParts
  | _ => false

/-- The fields of a subject hold texts, lists and maps. -/
theorem keepsParts_fieldType : ∀ key ∈ Shape.subject.keys,
    (Shape.subject.fieldType key).keepsParts = true := by
  decide

namespace Value.Hereditary

variable {P : Value → Prop} (hP : Hereditary P)
include hP

theorem ofEntries {entries : Attributes} (hkeys : ∀ e ∈ entries, ∃ s, e.1 = .text s)
    (h : ∀ e ∈ entries, P e.2) : P (.ofEntries entries) :=
  hP.map (named_ofEntries hkeys) (Assoc.forall_ofEntries h)

/-- Fitting keeps the property. -/
theorem convert {type : FieldType} (htype : type.keepsParts = true) {v w : Value}
    (h : type.convert v = .ok w) (hv : P v) : P w := by
  induction type generalizing v w with
  | text =>
    rw [FieldType.convert] at h
    obtain ⟨s, rfl⟩ := exists_text_of_convertText (fitHere_eq_ok_iff.mp h)
    exact hP.text s
  | anything =>
    cases h
    exact hv
  | listOf item ih =>
    obtain ⟨items, results, hitems, hall, rfl⟩ := FieldType.convert_listOf_iff.mp h
    refine hP.list fun result hresult => ?_
    obtain ⟨v, hv', hconvert⟩ := exists_of_mem_right hall hresult
    exact ih htype hconvert (hP.items hitems hv v hv')
  | mapOf item ih =>
    obtain ⟨entries, results, rfl, hall, rfl⟩ := FieldType.convert_mapOf_iff.mp h
    refine hP.ofEntries ?_ ?_
    · intro x hx
      obtain ⟨e, -, hkey, -⟩ := exists_of_mem_right hall hx
      exact exists_text_of_convertText hkey
    · intro x hx
      obtain ⟨e, he, -, hconvert⟩ := exists_of_mem_right hall hx
      exact ih htype hconvert (hP.values hv e he)
  | integer | number | truth | positiveInteger | positiveNumber => cases htype

/-- A field of a subject has the property when the values of the map have it. -/
theorem readField {entries : Attributes} (h : ∀ e ∈ entries, P e.2) {key : CanonicalKey}
    (hkey : key ∈ Shape.subject.keys) {v : Value}
    (hread : Record.readField .subject entries key = .ok v) : P v := by
  unfold Record.readField at hread
  split at hread
  · have hfit := below_eq_ok_iff.mp hread
    unfold Record.fit at hfit
    split at hfit
    · cases hfit
      exact hP.null
    · refine hP.convert (keepsParts_fieldType key hkey) hfit ?_
      rename_i name _ _
      cases hfind : Assoc.find? (Value.text name) entries with
      | none => exact hP.null
      | some value =>
        obtain ⟨k, hk⟩ := Assoc.exists_mem_of_find? hfind
        exact h _ hk
  -- The defaults are null and the empty map.
  · split at hread
    · rename_i hdefault
      cases hread
      unfold Shape.default? at hdefault
      split at hdefault
      · cases hdefault
        exact hP.map named_nil fun e he => by cases he
      · split at hdefault
        · cases hdefault
        · cases hdefault
          exact hP.null
    · cases hread

end Value.Hereditary

end Rollout
