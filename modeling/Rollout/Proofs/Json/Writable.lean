/-
Values that can be written as JSON.

A layout that quotes nothing refuses what JSON has no form for, and every layout refuses an integer
that is too long to be read again.  One part that is refused keeps the whole from being written,
wherever it stands; sorting the names of a value does not matter.

* `Json.Writable` — the values that can be written;
* `Json.exists_writeAt_iff` — writing them succeeds, and writing anything else fails;
* `Json.Writable.exists_write` — they can be written in every layout;
* `Json.exists_write_sortNames_iff` — the same after the names are sorted;
* `Json.hasText_of_write` — whatever keeps a value from being written has a text.
-/
import Rollout.Proofs.Failure
import Rollout.Proofs.Value.Storable

namespace Rollout.Json

open Rollout.Text

/-- A value that can be written without quoting a part of it. -/
inductive Writable : Value → Prop
  | null : Writable .null
  | bool (b : Bool) : Writable (.bool b)
  | int (n : Int) (short : digitCount n.natAbs ≤ Numeral.maxDigits) : Writable (.int n)
  | float (x : Binary64) : Writable (.float x)
  | text (s : String) : Writable (.text s)
  | list (items : List Value) (h : ∀ v ∈ items, Writable v) : Writable (.list items)
  | tuple (items : List Value) (h : ∀ v ∈ items, Writable v) : Writable (.tuple items)
  | map (entries : Attributes) (keys : ∀ e ∈ entries, ∃ name, keyName e.1 = .ok name)
      (values : ∀ e ∈ entries, Writable e.2) : Writable (.map entries)

/-! ### Writing -/

section Write

variable {layout : Layout} {level : Nat}

theorem exists_writeItems_iff {items : List Value} :
    (∃ parts, writeItems layout level items = .ok parts) ↔
      ∀ v ∈ items, ∃ cs, writeAt layout level v = .ok cs := by
  induction items with
  | nil => simp [writeItems]
  | cons v items ih =>
    rw [writeItems, List.forall_mem_cons, ← ih]
    cases writeAt layout level v with
    | error failure => simp
    | ok part => simp [exists_map_eq_ok_iff]

theorem exists_writeMembers_iff {entries : Attributes} :
    (∃ parts, writeMembers layout level entries = .ok parts) ↔ ∀ e ∈ entries,
      (∃ name, keyName e.1 = .ok name) ∧ ∃ cs, writeAt layout level e.2 = .ok cs := by
  induction entries with
  | nil => simp [writeMembers]
  | cons e entries ih =>
    obtain ⟨key, v⟩ := e
    rw [writeMembers, List.forall_mem_cons, ← ih]
    cases keyName key with
    | error failure => simp
    | ok name =>
      cases writeAt layout level v with
      | error failure => simp
      | ok part => simp [exists_map_eq_ok_iff]

theorem exists_writeInt_iff {n : Int} :
    (∃ cs, writeInt n = .ok cs) ↔ digitCount n.natAbs ≤ Numeral.maxDigits := by
  rw [writeInt]
  by_cases hshort : digitCount n.natAbs ≤ Numeral.maxDigits
  · simp [hshort]
  · simp [hshort]

/-- The values that can be written at a level are the writable ones. -/
theorem exists_writeAt_iff (hlayout : layout.quotesOthers = false) (v : Value) (level : Nat) :
    (∃ cs, writeAt layout level v = .ok cs) ↔ Writable v := by
  induction v using Value.induction_parts generalizing level with
  | step v ih =>
    cases v with
    | null => exact ⟨fun _ => .null, fun _ => ⟨_, rfl⟩⟩
    | bool b => exact ⟨fun _ => .bool b, fun _ => ⟨_, rfl⟩⟩
    | float x => exact ⟨fun _ => .float x, fun _ => ⟨_, rfl⟩⟩
    | text s => exact ⟨fun _ => .text s, fun _ => ⟨_, rfl⟩⟩
    | int n =>
      rw [writeAt, exists_writeInt_iff]
      exact ⟨.int n, fun | .int _ h => h⟩
    | list items =>
      rw [writeAt, exists_map_eq_ok_iff, exists_writeItems_iff]
      exact (forall₂_congr fun w hw => ih w hw (level + 1)).trans
        ⟨.list items, fun | .list _ h => h⟩
    | tuple items =>
      rw [writeAt, exists_map_eq_ok_iff, exists_writeItems_iff]
      exact (forall₂_congr fun w hw => ih w hw (level + 1)).trans
        ⟨.tuple items, fun | .tuple _ h => h⟩
    | map entries =>
      rw [writeAt, exists_map_eq_ok_iff, exists_writeMembers_iff]
      have hvalues : ∀ e ∈ entries,
          (∃ cs, writeAt layout (level + 1) e.2 = .ok cs) ↔ Writable e.2 :=
        fun e he => (Value.forall_parts_map ih e he).2 (level + 1)
      constructor
      · intro h
        exact .map entries (fun e he => (h e he).1) fun e he => (hvalues e he).mp (h e he).2
      · intro h e he
        cases h with
        | map _ keys values => exact ⟨keys e he, (hvalues e he).mpr (values e he)⟩
    | decimal | bytes | set | object =>
      constructor
      · rintro ⟨cs, hcs⟩
        rw [writeAt, writeOther, hlayout] at hcs
        cases hcs
      · intro h
        cases h

/-- What can be written without quoting can be written in every layout. -/
theorem Writable.exists_writeAt {v : Value} (h : Writable v) (layout : Layout) (level : Nat) :
    ∃ cs, writeAt layout level v = .ok cs := by
  induction h generalizing level with
  | null | bool | float | text => exact ⟨_, rfl⟩
  | int n short => exact exists_writeInt_iff.mpr short
  | list items _ ih | tuple items _ ih =>
    rw [writeAt, exists_map_eq_ok_iff, exists_writeItems_iff]
    exact fun v hv => ih v hv (level + 1)
  | map entries keys _ ih =>
    rw [writeAt, exists_map_eq_ok_iff, exists_writeMembers_iff]
    exact fun e he => ⟨keys e he, ih e he (level + 1)⟩

theorem Writable.exists_write {v : Value} (h : Writable v) (layout : Layout) :
    ∃ s, write layout v = .ok s := by
  rw [write, exists_map_eq_ok_iff]
  exact h.exists_writeAt layout 0

end Write

/-! ### Sorted names -/

theorem writable_sortNames_iff (v : Value) : Writable (sortNames v) ↔ Writable v := by
  induction v using Value.induction_parts with
  | step v ih =>
    cases v with
    | list items =>
      have hitems : (∀ w ∈ sortItems items, Writable w) ↔ ∀ w ∈ items, Writable w := by
        rw [sortItems_eq, List.forall_mem_map]
        exact forall₂_congr ih
      rw [sortNames]
      constructor
      · intro h
        cases h with
        | list _ h => exact .list items (hitems.mp h)
      · intro h
        cases h with
        | list _ h => exact .list _ (hitems.mpr h)
    | map entries =>
      -- Sorting reorders the entries, and keeps their keys.
      have hentries : ∀ {P : Value × Value → Prop}, (∀ e ∈ sortEntries (sortMembers entries), P e) ↔
          ∀ e ∈ entries, P (e.1, sortNames e.2) := by
        intro P
        have hmem : ∀ e, e ∈ sortEntries (sortMembers entries) ↔
            ∃ x ∈ entries, (x.1, sortNames x.2) = e := by
          intro e
          rw [(sortEntries_perm _).mem_iff, sortMembers_eq, List.mem_map]
        constructor
        · intro h e he
          exact h _ ((hmem _).mpr ⟨e, he, rfl⟩)
        · intro h e he
          obtain ⟨x, hx, rfl⟩ := (hmem e).mp he
          exact h x hx
      have hvalues : ∀ e ∈ entries, Writable (sortNames e.2) ↔ Writable e.2 :=
        fun e he => (Value.forall_parts_map ih e he).2
      rw [sortNames]
      constructor
      · intro h
        cases h with
        | map _ keys values =>
          refine .map entries (hentries.mp keys) fun e he => ?_
          exact (hvalues e he).mp (hentries.mp values e he)
      · intro h
        cases h with
        | map _ keys values =>
          refine .map _ (hentries.mpr keys) (hentries.mpr fun e he => ?_)
          exact (hvalues e he).mpr (values e he)
    | _ => exact Iff.rfl

/-- A value can be written with its names sorted exactly when it is writable. -/
theorem exists_write_sortNames_iff (v : Value) :
    (∃ s, write .compact (sortNames v) = .ok s) ↔ Writable v := by
  rw [write, exists_map_eq_ok_iff, writeChars, exists_writeAt_iff rfl, writable_sortNames_iff]

/-! ### Failures -/

section Failures

variable {layout : Layout} {level : Nat} {f : Failure}

theorem exists_of_writeItems_error {items : List Value}
    (h : writeItems layout level items = .error f) :
    ∃ v ∈ items, writeAt layout level v = .error f := by
  induction items with
  | nil => cases h
  | cons v items ih =>
    rw [writeItems] at h
    cases hv : writeAt layout level v with
    | error failure =>
      rw [hv] at h
      exact ⟨v, List.mem_cons_self, by rw [hv]; exact congrArg Except.error (Except.error.inj h)⟩
    | ok part =>
      rw [hv] at h
      obtain ⟨w, hw, hfail⟩ := ih (map_eq_error_iff.mp h)
      exact ⟨w, List.mem_cons_of_mem _ hw, hfail⟩

theorem exists_of_writeMembers_error {entries : Attributes}
    (h : writeMembers layout level entries = .error f) :
    ∃ e ∈ entries, keyName e.1 = .error f ∨ writeAt layout level e.2 = .error f := by
  induction entries with
  | nil => cases h
  | cons e entries ih =>
    obtain ⟨key, v⟩ := e
    rw [writeMembers] at h
    cases hkey : keyName key with
    | error failure =>
      rw [hkey] at h
      cases h
      exact ⟨_, List.mem_cons_self, .inl hkey⟩
    | ok name =>
      rw [hkey] at h
      cases hv : writeAt layout level v with
      | error failure =>
        rw [hv] at h
        cases h
        exact ⟨_, List.mem_cons_self, .inr hv⟩
      | ok part =>
        rw [hv] at h
        obtain ⟨x, hx, hfail⟩ := ih (map_eq_error_iff.mp h)
        exact ⟨x, List.mem_cons_of_mem _ hx, hfail⟩

theorem hasText_of_writeInt {n : Int} (h : writeInt n = .error f) : f.HasText := by
  unfold writeInt at h
  split at h
  · cases h
  · cases h
    exact ⟨_, rfl⟩

theorem hasText_of_keyName {key : Value} (h : keyName key = .error f) : f.HasText := by
  cases key with
  | int n => exact hasText_of_writeInt (map_eq_error_iff.mp h)
  | null | bool | float | text => cases h
  | _ =>
    cases h
    exact ⟨_, rfl⟩

theorem hasText_of_writeOther {v : Value} (h : writeOther layout v = .error f) : f.HasText := by
  unfold writeOther at h
  split at h
  · split at h
    · cases h
    · cases h
      exact ⟨_, rfl⟩
  · cases h
    exact ⟨_, rfl⟩

theorem hasText_of_writeAt {v : Value} (h : writeAt layout level v = .error f) : f.HasText := by
  induction v using Value.induction_parts generalizing level with
  | step v ih =>
    cases v with
    | null | bool | float | text => cases h
    | int n => exact hasText_of_writeInt h
    | list items | tuple items =>
      rw [writeAt, map_eq_error_iff] at h
      obtain ⟨w, hw, hfail⟩ := exists_of_writeItems_error h
      exact ih w hw hfail
    | map entries =>
      rw [writeAt, map_eq_error_iff] at h
      obtain ⟨e, he, hkey | hvalue⟩ := exists_of_writeMembers_error h
      · exact hasText_of_keyName hkey
      · exact (Value.forall_parts_map ih e he).2 hvalue
    | decimal | bytes | set | object => exact hasText_of_writeOther h

theorem hasText_of_write {v : Value} (h : write layout v = .error f) : f.HasText :=
  hasText_of_writeAt (map_eq_error_iff.mp h)

end Failures

end Rollout.Json
