/-
Values that JSON holds as they are.

A plain value is built from nulls, truth values, integers short enough to be written, finite
floats, texts, lists, and maps whose keys are texts.  Such a value is its own reduction, and it
stays plain when the names of its maps are sorted.

* `Value.Plain` — plain values;
* `Value.Plain.reduce` — reducing a plain value changes nothing;
* `Value.Plain.sortNames` — sorting the names of a plain value leaves it plain.
-/
import Rollout.Json.Writer
import Rollout.Proofs.Assoc
import Rollout.Proofs.Number.Rounding
import Rollout.Proofs.Value.Levels

namespace Rollout

open Rollout.Text

/-- Entries with distinct texts as keys. -/
def Named (entries : Attributes) : Prop :=
  (∀ e ∈ entries, ∃ s, e.1 = .text s) ∧ (entries.map Prod.fst).Nodup

/-- A value that JSON holds as it is. -/
inductive Value.Plain : Value → Prop
  | null : Plain .null
  | bool (b : Bool) : Plain (.bool b)
  | int (n : Int) (h : digitCount n.natAbs ≤ Numeral.maxDigits) : Plain (.int n)
  | float (negative : Bool) (mantissa : Nat) (exponent : Int)
      (h : Binary64.Canonical mantissa exponent) :
      Plain (.float (.finite negative mantissa exponent))
  | text (s : String) : Plain (.text s)
  | list (items : List Value) (h : ∀ v ∈ items, Plain v) : Plain (.list items)
  | map (entries : Attributes) (named : Named entries) (h : ∀ e ∈ entries, Plain e.2) :
      Plain (.map entries)

/-! ### Maps with distinct keys -/

@[simp] theorem Value.text_beq_text (s t : String) :
    ((Value.text s : Value) == Value.text t) = (s == t) := by
  change Value.sameKey (.text s) (.text t) = (s == t)
  rw [Value.sameKey]

theorem Named.ofEntries {entries : Attributes} (h : Named entries) :
    Assoc.ofEntries entries = entries := by
  obtain ⟨hkeys, hnodup⟩ := h
  apply Assoc.ofEntries_of_pairwise_ne
  refine List.Pairwise.imp_of_mem ?_ hnodup
  intro a b ha hb hab
  obtain ⟨x, hx, rfl⟩ := List.mem_map.mp ha
  obtain ⟨y, hy, rfl⟩ := List.mem_map.mp hb
  obtain ⟨s, hs⟩ := hkeys x hx
  obtain ⟨t, ht⟩ := hkeys y hy
  rw [hs, ht] at hab ⊢
  rw [Value.text_beq_text, beq_eq_false_iff_ne]
  exact fun hst => hab (congrArg Value.text hst)

theorem Named.perm {entries others : Attributes} (h : Named entries)
    (hperm : entries.Perm others) : Named others :=
  ⟨fun e he => h.1 e (hperm.mem_iff.mpr he), (hperm.map Prod.fst).nodup h.2⟩

/-- A key of distinct ones has one value. -/
theorem Named.unique {entries : Attributes} (h : Named entries) {k v w : Value}
    (hv : (k, v) ∈ entries) (hw : (k, w) ∈ entries) : v = w := by
  have := List.inj_on_of_nodup_map h.2 hv hw rfl
  exact congrArg Prod.snd this

theorem Named.insert {entries : Attributes} (h : Named entries) (s : String) (v : Value) :
    Named (Assoc.insert (.text s) v entries) := by
  obtain ⟨hkeys, hnodup⟩ := h
  have hmem : ∀ k ∈ entries.map Prod.fst, ∃ t, k = .text t := by
    intro k hk
    obtain ⟨e, he, rfl⟩ := List.mem_map.mp hk
    exact hkeys e he
  have hfst := Assoc.keys_insert (.text s) v entries
  split at hfst
  · refine ⟨fun e he => hmem e.1 ?_, by rw [hfst]; exact hnodup⟩
    rw [← hfst]
    exact List.mem_map_of_mem he
  · rename_i hnew
    constructor
    · intro e he
      have he' := List.mem_map_of_mem (f := Prod.fst) he
      rw [hfst] at he'
      rcases List.mem_append.mp he' with hk | hk
      · exact hmem e.1 hk
      · exact ⟨s, List.mem_singleton.mp hk⟩
    · rw [hfst, List.nodup_append]
      refine ⟨hnodup, List.nodup_singleton _, fun k hk l hl heq => hnew ?_⟩
      rw [List.mem_singleton.mp hl] at heq
      obtain ⟨e, he, rfl⟩ := List.mem_map.mp hk
      rw [Assoc.contains_iff]
      exact ⟨e, he, by rw [heq, Value.text_beq_text, beq_self_eq_true]⟩

theorem Named.update {entries others : Attributes} (h : Named entries)
    (hothers : ∀ e ∈ others, ∃ s, e.1 = .text s) : Named (Assoc.update entries others) := by
  induction others generalizing entries with
  | nil => exact h
  | cons e rest ih =>
    obtain ⟨s, hs⟩ := hothers e List.mem_cons_self
    have hstep : Assoc.update entries (e :: rest)
        = Assoc.update (Assoc.insert e.1 e.2 entries) rest := rfl
    rw [hstep, hs]
    exact ih (h.insert s e.2) fun e he => hothers e (List.mem_cons_of_mem _ he)

theorem named_nil : Named [] := ⟨fun e he => (by cases he), List.nodup_nil⟩

/-- Writing entries with texts as keys one by one leaves the texts distinct. -/
theorem named_ofEntries {entries : Attributes} (h : ∀ e ∈ entries, ∃ s, e.1 = .text s) :
    Named (Assoc.ofEntries entries) :=
  named_nil.update h

/-! ### Reducing plain values -/

namespace Value

/-- A plain value is its own reduction. -/
theorem Plain.reduce {v : Value} (h : v.Plain) : v.reduce = .ok v := by
  induction h with
  | null => rfl
  | bool b => rfl
  | int n _ => rfl
  | float negative m e _ => rfl
  | text s => rfl
  | list items _ ih =>
    rw [reduce_of_listItems? rfl, dumpEach_eq_ok_iff.mpr (List.forall₂_same.mpr ih)]
    rfl
  | map entries hnamed _ ih =>
    have hentries : dumpEachEntry Value.reduce entries = .ok entries := by
      refine dumpEachEntry_eq_ok_iff.mpr (List.forall₂_same.mpr fun e he => ?_)
      obtain ⟨s, hs⟩ := hnamed.1 e he
      exact ⟨s, by rw [hs, dumpKey], hs, ih e he⟩
    rw [reduce_map, hentries]
    change Except.ok (Value.map (Assoc.ofEntries entries)) = _
    rw [hnamed.ofEntries]

end Value

theorem Value.Plain.nested {v : Value} (h : v.Plain) (n : Nat) : (v.nested n).Plain := by
  induction n with
  | zero => exact h
  | succ n ih => exact .list _ (List.forall_mem_singleton.mpr ih)

/-! ### Fitting plain values -/

theorem convertEntries_named {entries : Attributes} (h : ∀ e ∈ entries, ∃ s, e.1 = .text s) :
    gather (entries.map (convertEntry FieldType.anything.convert)) = .ok entries := by
  induction entries with
  | nil => rfl
  | cons e rest ih =>
    obtain ⟨k, v⟩ := e
    obtain ⟨s, rfl⟩ := h (k, v) List.mem_cons_self
    rw [List.map_cons]
    have hhead : convertEntry FieldType.anything.convert (.text s, v) = .ok (.text s, v) := rfl
    rw [hhead, gather, ih fun e he => h e (List.mem_cons_of_mem _ he)]

/-- A map of distinct names is fitted as it is. -/
theorem FieldType.convert_map_anything {entries : Attributes} (h : Named entries) :
    (FieldType.mapOf .anything).convert (.map entries) = .ok (.map entries) := by
  rw [FieldType.convert]
  simp only [convertEntries_named h.1]
  change Except.ok (Value.map (Assoc.ofEntries entries)) = _
  rw [h.ofEntries]

/-! ### Sorting the names of plain values -/

namespace Json

theorem sortItems_eq (items : List Value) : sortItems items = items.map sortNames := by
  induction items with
  | nil => rfl
  | cons v rest ih => rw [sortItems, ih, List.map_cons]

theorem sortMembers_eq (entries : Attributes) :
    sortMembers entries = entries.map fun e => (e.1, sortNames e.2) := by
  induction entries with
  | nil => rfl
  | cons e rest ih => rw [sortMembers, ih, List.map_cons]

theorem sortMembers_keys (entries : Attributes) :
    (sortMembers entries).map Prod.fst = entries.map Prod.fst := by
  rw [sortMembers_eq, List.map_map]
  rfl

theorem sortEntries_perm (entries : Attributes) : (sortEntries entries).Perm entries :=
  List.mergeSort_perm _ _

theorem named_sortMembers {entries : Attributes} (h : Named entries) :
    Named (sortMembers entries) := by
  refine ⟨fun e he => ?_, by rw [sortMembers_keys]; exact h.2⟩
  rw [sortMembers_eq] at he
  obtain ⟨x, hx, rfl⟩ := List.mem_map.mp he
  exact h.1 x hx

end Json

/-- Sorting the names of a plain value leaves it plain. -/
theorem Value.Plain.sortNames {v : Value} (h : v.Plain) : (Json.sortNames v).Plain := by
  induction h with
  | null => exact .null
  | bool b => exact .bool b
  | int n hn => exact .int n hn
  | float negative m e hc => exact .float negative m e hc
  | text s => exact .text s
  | list items _ ih =>
    rw [Json.sortNames, Json.sortItems_eq]
    refine .list _ fun v hv => ?_
    obtain ⟨w, hw, rfl⟩ := List.mem_map.mp hv
    exact ih w hw
  | map entries hnamed _ ih =>
    have hperm := (Json.sortEntries_perm (Json.sortMembers entries)).symm
    rw [Json.sortNames]
    refine .map _ ((Json.named_sortMembers hnamed).perm hperm) fun e he => ?_
    rw [← hperm.mem_iff, Json.sortMembers_eq] at he
    obtain ⟨x, hx, rfl⟩ := List.mem_map.mp he
    exact ih x hx

end Rollout
