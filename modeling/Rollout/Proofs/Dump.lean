/-
Values that can be reduced, and the order of their maps.

A list can be reduced when its items can, and a map when its keys and values can.  The entries of a
map in another order reduce to the same entries in that order, so their sorted reductions are equal.

* `Value.Reducible` — values that have a reduction;
* `Value.reducible_iff_of_listItems?`, `Value.reducible_map_iff` — lists and maps that can be reduced;
* `Value.reducesAlike_of_perm` — the order of a map is lost when its reduction is sorted;
* `hasText_of_dumpFields` — the failures of reducing have a text.
-/
import Rollout.Proofs.Failure
import Rollout.Proofs.Value.Alike

namespace Rollout

/-- A value that has a reduction. -/
def Value.Reducible (v : Value) : Prop := ∃ d, v.reduce = .ok d

/-! ### Lists and maps -/

namespace Value

/-- The items of a value that is read as a list can be reduced when the value can, and the other way
round. -/
theorem reducible_iff_of_listItems? {v : Value} {items : List Value} (h : listItems? v = some items) :
    v.Reducible ↔ ∀ w ∈ items, w.Reducible := by
  simp only [Reducible, reduce_of_listItems? h, map_eq_ok_iff, dumpEach_eq_ok_iff,
    ← exists_forall₂_iff]
  constructor
  · rintro ⟨_, reduced, hreduced, -⟩
    exact ⟨reduced, hreduced⟩
  · rintro ⟨reduced, hreduced⟩
    exact ⟨_, reduced, hreduced, rfl⟩

theorem reducible_map_iff {entries : Attributes} :
    (Value.map entries).Reducible ↔ ∀ e ∈ entries, (∃ s, e.1.dumpKey = .ok s) ∧ e.2.Reducible := by
  have hentries : (∃ reduced, dumpEachEntry reduce entries = .ok reduced) ↔
      ∀ e ∈ entries, (∃ s, e.1.dumpKey = .ok s) ∧ e.2.Reducible := by
    simp only [dumpEachEntry_eq_ok_iff, exists_forall₂_iff]
    refine forall₂_congr fun e _ => ⟨?_, ?_⟩
    · rintro ⟨reduced, s, hs, -, hd⟩
      exact ⟨⟨s, hs⟩, _, hd⟩
    · rintro ⟨⟨s, hs⟩, d, hd⟩
      exact ⟨(.text s, d), s, hs, rfl, hd⟩
  rw [← hentries, Reducible, reduce_map]
  simp only [map_eq_ok_iff]
  constructor
  · rintro ⟨_, reduced, hreduced, -⟩
    exact ⟨reduced, hreduced⟩
  · rintro ⟨reduced, hreduced⟩
    exact ⟨_, reduced, hreduced, rfl⟩

end Value

/-! ### Maps in another order -/

theorem keys_of_dumpEachEntry {dump : Value → Except Failure Value} {entries reduced : Attributes}
    (hkeys : ∀ e ∈ entries, ∃ s, e.1 = .text s) (h : dumpEachEntry dump entries = .ok reduced) :
    reduced.map Prod.fst = entries.map Prod.fst := by
  rw [dumpEachEntry_eq_ok_iff] at h
  induction h with
  | nil => rfl
  | @cons e d entries reduced hfirst _ ih =>
    obtain ⟨s, hs, hd, -⟩ := hfirst
    obtain ⟨t, ht⟩ := hkeys e List.mem_cons_self
    rw [ht, Value.dumpKey, Except.ok.injEq] at hs
    rw [List.map_cons, List.map_cons, ih fun x hx => hkeys x (List.mem_cons_of_mem _ hx), hd, ht, hs]

theorem Named.of_dumpEachEntry {dump : Value → Except Failure Value} {entries reduced : Attributes}
    (hnamed : Named entries) (h : dumpEachEntry dump entries = .ok reduced) : Named reduced := by
  have hkeys := keys_of_dumpEachEntry hnamed.1 h
  refine ⟨?_, by rw [hkeys]; exact hnamed.2⟩
  intro d hd
  obtain ⟨e, he, heq⟩ := List.mem_map.mp (hkeys ▸ List.mem_map_of_mem (f := Prod.fst) hd)
  rw [← heq]
  exact hnamed.1 e he

/-- Entries with distinct names are reduced as they stand. -/
theorem Named.reduce_map {entries : Attributes} (hnamed : Named entries) {d : Value} :
    (Value.map entries).reduce = .ok d ↔
      ∃ reduced,
        dumpEachEntry Value.reduce entries = .ok reduced ∧ Named reduced ∧ d = .map reduced := by
  rw [Value.reduce_map, map_eq_ok_iff]
  refine exists_congr fun reduced => and_congr_right fun hreduced => ?_
  have hnamed' := hnamed.of_dumpEachEntry hreduced
  rw [Value.ofEntries, hnamed'.ofEntries]
  constructor
  · rintro rfl
    exact ⟨hnamed', rfl⟩
  · rintro ⟨-, rfl⟩
    rfl

section Fields

variable {fields : List (String × FieldType × Value)} (hnamed : Named (namedEntries fields))
include hnamed

/-- Fields of distinct names are dumped as their map is reduced, if they have few enough levels. -/
theorem Named.map_dumpFields {d : Value} : (dumpFields fields).map .map = .ok d ↔
    (∀ field ∈ fields, field.2.1.levels field.2.2 ≤ Value.maxLevels) ∧
      (Value.map (namedEntries fields)).reduce = .ok d := by
  rw [hnamed.reduce_map, map_eq_ok_iff]
  simp only [dumpFields_eq_ok_iff]
  constructor
  · rintro ⟨dumped, ⟨hlevels, hdumped⟩, rfl⟩
    exact ⟨hlevels, dumped, hdumped, hnamed.of_dumpEachEntry hdumped, rfl⟩
  · rintro ⟨hlevels, dumped, hdumped, -, rfl⟩
    exact ⟨dumped, ⟨hlevels, hdumped⟩, rfl⟩

theorem Named.eq_tooDeep_of_dumpFields {d : Value}
    (hreduce : (Value.map (namedEntries fields)).reduce = .ok d) {f : Failure}
    (h : (dumpFields fields).map Value.map = .error f) : f = .tooDeep := by
  obtain ⟨dumped, hdumped, -⟩ := hnamed.reduce_map.mp hreduce
  exact Rollout.eq_tooDeep_of_dumpFields hdumped (map_eq_error_iff.mp h)

end Fields

/-- Values that are reduced to the same up to the order of names. -/
def Value.ReducesAlike (v w : Value) : Prop :=
  ∃ d d', v.reduce = .ok d ∧ w.reduce = .ok d' ∧ Json.sortNames d = Json.sortNames d'

theorem Value.Reducible.reducesAlike {v : Value} (h : v.Reducible) : v.ReducesAlike v := by
  obtain ⟨d, hd⟩ := h
  exact ⟨d, d, hd, hd, rfl⟩

/-- The order of the entries of a map does not show after its reduction is sorted. -/
theorem Value.reducesAlike_of_perm {as bs : Attributes} (hnamed : Named as) (hperm : as.Perm bs)
    (h : (Value.map as).Reducible) : (Value.map as).ReducesAlike (.map bs) := by
  obtain ⟨d, hd⟩ := h
  obtain ⟨reduced, hreduced, hnamed', rfl⟩ := hnamed.reduce_map.mp hd
  -- The entries are reduced one by one, so their reductions are reordered with them.
  obtain ⟨reduced', hreduced', hperm'⟩ :=
    List.perm_comp_forall₂ hperm.symm (dumpEachEntry_eq_ok_iff.mp hreduced)
  refine ⟨_, .map reduced', hd, ?_, ?_⟩
  · exact (hnamed.perm hperm).reduce_map.mpr
      ⟨reduced', dumpEachEntry_eq_ok_iff.mpr hreduced', hnamed'.perm hperm'.symm, rfl⟩
  · have hsorted : (Json.sortMembers reduced).Perm (Json.sortMembers reduced') := by
      rw [Json.sortMembers_eq, Json.sortMembers_eq]
      exact hperm'.symm.map _
    rw [Json.sortNames, Json.sortNames,
      (Json.sortEntries_eq_iff (Json.named_sortMembers hnamed')).mpr hsorted]

/-! ### Failures -/

section Failures

variable {f : Failure}

theorem hasText_of_textOfBytes {octets : List UInt8} (h : textOfBytes octets = .error f) :
    f.HasText := by
  unfold textOfBytes at h
  split at h
  · cases h
  · cases h
    exact ⟨_, rfl⟩

theorem exists_of_dumpKeys_error {items : List Value} (h : dumpKeys items = .error f) :
    ∃ v ∈ items, v.dumpKey = .error f := by
  induction items with
  | nil => cases h
  | cons v items ih =>
    rw [dumpKeys] at h
    cases hv : v.dumpKey with
    | error failure =>
      rw [hv] at h
      cases h
      exact ⟨v, List.mem_cons_self, hv⟩
    | ok s =>
      rw [hv] at h
      obtain ⟨w, hw, hfail⟩ := ih (map_eq_error_iff.mp h)
      exact ⟨w, List.mem_cons_of_mem _ hw, hfail⟩

namespace Value

theorem hasText_of_dumpKey {v : Value} (h : v.dumpKey = .error f) : f.HasText := by
  induction v using induction_parts with
  | step v ih =>
    cases v with
    | int n =>
      rw [dumpKey] at h
      split at h
      · cases h
      · cases h
        exact ⟨_, rfl⟩
    | bytes octets => exact hasText_of_textOfBytes h
    | tuple items =>
      obtain ⟨w, hw, hfail⟩ := exists_of_dumpKeys_error (map_eq_error_iff.mp h)
      exact ih w hw hfail
    | list | set | map | object =>
      cases h
      exact ⟨_, rfl⟩
    | _ => cases h

theorem hasText_of_dumpWithin {room : Nat} {v : Value} (h : v.dumpWithin room = .error f) :
    f.HasText := by
  induction v using induction_parts generalizing room with
  | step v ih =>
    cases room with
    | zero =>
      rw [dumpWithin] at h
      cases h
      exact ⟨_, rfl⟩
    | succ room =>
      have hlist : ∀ items, listItems? v = some items → (∀ w ∈ items, w ∈ v.parts) → f.HasText := by
        intro items hitems hparts
        rw [dumpWithin_of_listItems? hitems, map_eq_error_iff] at h
        obtain ⟨w, hw, hfail⟩ := exists_of_dumpEach_error h
        exact ih w (hparts w hw) hfail
      cases v with
      | list items | tuple items | set items => exact hlist items rfl fun _ hw => hw
      | map entries =>
        rw [dumpWithin, dumpEntries_eq, map_eq_error_iff] at h
        obtain ⟨e, he, hkey | hvalue⟩ := exists_of_dumpEachEntry_error h
        · exact hasText_of_dumpKey hkey
        · exact (forall_parts_map ih e he).2 hvalue
      | bytes octets => exact hasText_of_textOfBytes (map_eq_error_iff.mp h)
      | object =>
        cases h
        exact ⟨_, rfl⟩
      | _ => cases h

end Value

theorem FieldType.hasText_of_dump {type : FieldType} {v : Value} (h : type.dump v = .error f) :
    f.HasText := by
  induction type generalizing v with
  | listOf item ih =>
    cases v with
    | list items =>
      obtain ⟨w, -, hfail⟩ := exists_of_dumpEach_error (map_eq_error_iff.mp h)
      exact ih hfail
    | _ => exact Value.hasText_of_dumpWithin h
  | mapOf item ih =>
    cases v with
    | map entries =>
      obtain ⟨e, -, hkey | hvalue⟩ := exists_of_dumpEachEntry_error (map_eq_error_iff.mp h)
      · exact Value.hasText_of_dumpKey hkey
      · exact ih hvalue
    | _ => exact Value.hasText_of_dumpWithin h
  | _ => exact Value.hasText_of_dumpWithin h

/-- Whatever keeps fields from being dumped has a text. -/
theorem hasText_of_dumpFields {fields : List (String × FieldType × Value)}
    (h : dumpFields fields = .error f) : f.HasText := by
  induction fields with
  | nil => cases h
  | cons field fields ih =>
    obtain ⟨name, type, v⟩ := field
    rw [dumpFields] at h
    cases hv : type.dump v with
    | error failure =>
      rw [hv] at h
      cases h
      exact FieldType.hasText_of_dump hv
    | ok d =>
      rw [hv] at h
      exact ih (map_eq_error_iff.mp h)

end Failures

end Rollout
