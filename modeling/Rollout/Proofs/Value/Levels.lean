/-
Values reduced however deep they are.

How far down a value stands does not change what it is reduced to, only whether it is.  So a value has
a reduction of its own; its dump is that reduction when the value has few enough levels, and fails when
it has more.

* `Value.induction_parts` — induction over the parts of a value;
* `Value.levels`, `FieldType.levels` — the levels of a value, on its own and in a field;
* `Value.reduce` — the reduction of a value;
* `FieldType.dump_eq_ok_iff` — a value is dumped as its reduction, if it has few enough levels;
* `FieldType.eq_tooDeep_of_dump` — a value that has a reduction fails to be dumped in one way only.
-/
import Rollout.Dump
import Rollout.Proofs.FieldType

namespace Rollout

/-! ### Parts -/

namespace Value

/-- The values that a value is made of. -/
def parts : Value → List Value
  | .list items | .tuple items | .set items => items
  | .map entries => entries.map Prod.fst ++ entries.map Prod.snd
  | _ => []

theorem sizeOf_lt_of_mem_entries {entries : Attributes} {e : Value × Value} (he : e ∈ entries) :
    sizeOf e.1 < sizeOf (Value.map entries) ∧ sizeOf e.2 < sizeOf (Value.map entries) := by
  have hentry := List.sizeOf_lt_of_mem he
  obtain ⟨k, v⟩ := e
  simp only [Prod.mk.sizeOf_spec, Value.map.sizeOf_spec] at hentry ⊢
  omega

theorem sizeOf_lt_of_mem_parts {v w : Value} (h : w ∈ v.parts) : sizeOf w < sizeOf v := by
  cases v with
  | list items | tuple items | set items =>
    have hitem := List.sizeOf_lt_of_mem (show w ∈ items from h)
    simp only [Value.list.sizeOf_spec, Value.tuple.sizeOf_spec, Value.set.sizeOf_spec]
    omega
  | map entries =>
    rcases List.mem_append.mp h with hkey | hvalue
    · obtain ⟨e, he, rfl⟩ := List.mem_map.mp hkey
      exact (sizeOf_lt_of_mem_entries he).1
    · obtain ⟨e, he, rfl⟩ := List.mem_map.mp hvalue
      exact (sizeOf_lt_of_mem_entries he).2
  | _ => cases h

/-- What holds of a value as soon as it holds of its parts holds of every value. -/
theorem induction_parts {P : Value → Prop} (step : ∀ v, (∀ w ∈ v.parts, P w) → P v) (v : Value) :
    P v :=
  step v fun w hw =>
    have := sizeOf_lt_of_mem_parts hw
    induction_parts step w
termination_by sizeOf v

theorem forall_parts_map {P : Value → Prop} {entries : Attributes}
    (h : ∀ w ∈ (Value.map entries).parts, P w) : ∀ e ∈ entries, P e.1 ∧ P e.2 := by
  intro e he
  refine ⟨h _ (List.mem_append_left _ ?_), h _ (List.mem_append_right _ ?_)⟩
  · exact List.mem_map_of_mem he
  · exact List.mem_map_of_mem he

end Value

/-! ### Lists and entries -/

section Each

variable {dump other : Value → Except Failure Value} {P : Value → Prop}
  {items reduced : List Value} {entries dumped : Attributes} {f : Failure}

theorem dumpEach_eq_ok_iff :
    dumpEach dump items = .ok reduced ↔ List.Forall₂ (fun v d => dump v = .ok d) items reduced := by
  induction items generalizing reduced with
  | nil => simp [dumpEach, eq_comm]
  | cons v items ih =>
    rw [dumpEach, List.forall₂_cons_left_iff]
    cases dump v with
    | error failure => simp
    | ok d =>
      simp only [map_eq_ok_iff, ih, Except.ok.injEq]
      constructor
      · rintro ⟨others, hothers, rfl⟩
        exact ⟨d, others, rfl, hothers, rfl⟩
      · rintro ⟨_, others, rfl, hothers, rfl⟩
        exact ⟨others, hothers, rfl⟩

/-- What an entry of a map is dumped as. -/
def DumpsEntry (dump : Value → Except Failure Value) (e dumped : Value × Value) : Prop :=
  ∃ s, e.1.dumpKey = .ok s ∧ dumped.1 = .text s ∧ dump e.2 = .ok dumped.2

theorem dumpEachEntry_eq_ok_iff :
    dumpEachEntry dump entries = .ok dumped ↔ List.Forall₂ (DumpsEntry dump) entries dumped := by
  induction entries generalizing dumped with
  | nil => simp [dumpEachEntry, eq_comm]
  | cons e entries ih =>
    obtain ⟨key, v⟩ := e
    rw [dumpEachEntry, List.forall₂_cons_left_iff]
    cases hkey : key.dumpKey with
    | error failure => simp [DumpsEntry, hkey]
    | ok s =>
      cases hv : dump v with
      | error failure => simp [DumpsEntry, hv]
      | ok d =>
        simp only [map_eq_ok_iff, ih]
        constructor
        · rintro ⟨others, hothers, rfl⟩
          exact ⟨_, others, ⟨s, hkey, rfl, hv⟩, hothers, rfl⟩
        · rintro ⟨⟨key', d'⟩, others, ⟨t, ht, hkey', hd'⟩, hothers, rfl⟩
          rw [hkey, Except.ok.injEq] at ht
          rw [hv, Except.ok.injEq] at hd'
          subst ht hd'
          exact ⟨others, hothers, by rw [← hkey']⟩

/-- Two ways to dump values that differ by a condition differ on lists by that of all items. -/
theorem dumpEach_congr_of (h : ∀ v ∈ items, ∀ d, dump v = .ok d ↔ P v ∧ other v = .ok d) :
    dumpEach dump items = .ok reduced ↔ (∀ v ∈ items, P v) ∧ dumpEach other items = .ok reduced := by
  rw [dumpEach_eq_ok_iff, dumpEach_eq_ok_iff]
  induction items generalizing reduced with
  | nil => simp
  | cons v items ih =>
    obtain ⟨hv, hitems⟩ := List.forall_mem_cons.mp h
    simp only [List.forall₂_cons_left_iff, hv, ih hitems, List.forall_mem_cons]
    constructor
    · rintro ⟨d, others, ⟨hP, hd⟩, ⟨hall, hothers⟩, rfl⟩
      exact ⟨⟨hP, hall⟩, d, others, hd, hothers, rfl⟩
    · rintro ⟨⟨hP, hall⟩, d, others, hd, hothers, rfl⟩
      exact ⟨d, others, ⟨hP, hd⟩, ⟨hall, hothers⟩, rfl⟩

theorem dumpEachEntry_congr_of
    (h : ∀ e ∈ entries, ∀ d, dump e.2 = .ok d ↔ P e.2 ∧ other e.2 = .ok d) :
    dumpEachEntry dump entries = .ok dumped ↔
      (∀ e ∈ entries, P e.2) ∧ dumpEachEntry other entries = .ok dumped := by
  rw [dumpEachEntry_eq_ok_iff, dumpEachEntry_eq_ok_iff]
  induction entries generalizing dumped with
  | nil => simp
  | cons e entries ih =>
    obtain ⟨he, hentries⟩ := List.forall_mem_cons.mp h
    simp only [List.forall₂_cons_left_iff, DumpsEntry, he, ih hentries, List.forall_mem_cons]
    constructor
    · rintro ⟨d, others, ⟨s, hs, hkey, hP, hd⟩, ⟨hall, hothers⟩, rfl⟩
      exact ⟨⟨hP, hall⟩, d, others, ⟨s, hs, hkey, hd⟩, hothers, rfl⟩
    · rintro ⟨⟨hP, hall⟩, d, others, ⟨s, hs, hkey, hd⟩, hothers, rfl⟩
      exact ⟨d, others, ⟨s, hs, hkey, hP, hd⟩, ⟨hall, hothers⟩, rfl⟩

/-- A list fails to be dumped as one of its items does. -/
theorem exists_of_dumpEach_error (h : dumpEach dump items = .error f) :
    ∃ v ∈ items, dump v = .error f := by
  induction items with
  | nil => cases h
  | cons v items ih =>
    rw [dumpEach] at h
    cases hv : dump v with
    | error failure =>
      rw [hv] at h
      cases h
      exact ⟨v, List.mem_cons_self, hv⟩
    | ok d =>
      rw [hv] at h
      obtain ⟨w, hw, hfail⟩ := ih (map_eq_error_iff.mp h)
      exact ⟨w, List.mem_cons_of_mem _ hw, hfail⟩

/-- Entries fail to be dumped as one of the keys or of the values does. -/
theorem exists_of_dumpEachEntry_error (h : dumpEachEntry dump entries = .error f) :
    ∃ e ∈ entries, e.1.dumpKey = .error f ∨ dump e.2 = .error f := by
  induction entries with
  | nil => cases h
  | cons e entries ih =>
    obtain ⟨key, v⟩ := e
    rw [dumpEachEntry] at h
    cases hkey : key.dumpKey with
    | error failure =>
      rw [hkey] at h
      cases h
      exact ⟨(key, v), List.mem_cons_self, .inl hkey⟩
    | ok s =>
      cases hv : dump v with
      | error failure =>
        rw [hkey, hv] at h
        cases h
        exact ⟨(key, v), List.mem_cons_self, .inr hv⟩
      | ok d =>
        rw [hkey, hv] at h
        obtain ⟨w, hw, hfail⟩ := ih (map_eq_error_iff.mp h)
        exact ⟨w, List.mem_cons_of_mem _ hw, hfail⟩

/-- A list that is dumped in another way fails as the items do. -/
theorem eq_tooDeep_of_dumpEach (hother : dumpEach other items = .ok reduced)
    (h : ∀ v ∈ items, ∀ d, other v = .ok d → dump v = .error f → f = .tooDeep)
    (hdump : dumpEach dump items = .error f) : f = .tooDeep := by
  obtain ⟨v, hv, hfail⟩ := exists_of_dumpEach_error hdump
  obtain ⟨d, -, hd⟩ := exists_of_mem_right (dumpEach_eq_ok_iff.mp hother).flip hv
  exact h v hv d hd hfail

theorem eq_tooDeep_of_dumpEachEntry (hother : dumpEachEntry other entries = .ok dumped)
    (h : ∀ e ∈ entries, ∀ d, other e.2 = .ok d → dump e.2 = .error f → f = .tooDeep)
    (hdump : dumpEachEntry dump entries = .error f) : f = .tooDeep := by
  obtain ⟨e, he, hfail⟩ := exists_of_dumpEachEntry_error hdump
  obtain ⟨d, -, s, hs, -, hd⟩ := exists_of_mem_right (dumpEachEntry_eq_ok_iff.mp hother).flip he
  rcases hfail with hkey | hvalue
  -- The keys are dumped in the same way by both.
  · cases hs.symm.trans hkey
  · exact h e he _ hd hvalue

end Each

/-! ### Levels -/

mutual

/-- The number of levels of a value: one more than its items and values have. -/
def Value.levels : Value → Nat
  | .list items => itemLevels items + 1
  | .tuple items => itemLevels items + 1
  | .set items => itemLevels items + 1
  | .map entries => entryLevels entries + 1
  | _ => 1

/-- The most levels that an item has. -/
def itemLevels : List Value → Nat
  | [] => 0
  | v :: rest => max v.levels (itemLevels rest)

/-- The most levels that a value of an entry has. -/
def entryLevels : List (Value × Value) → Nat
  | [] => 0
  | (_, v) :: rest => max v.levels (entryLevels rest)

end

theorem itemLevels_le_iff {items : List Value} {n : Nat} :
    itemLevels items ≤ n ↔ ∀ v ∈ items, v.levels ≤ n := by
  induction items with
  | nil => simp [itemLevels]
  | cons v items ih => rw [itemLevels, Nat.max_le, ih, List.forall_mem_cons]

theorem entryLevels_le_iff {entries : Attributes} {n : Nat} :
    entryLevels entries ≤ n ↔ ∀ e ∈ entries, e.2.levels ≤ n := by
  induction entries with
  | nil => simp [entryLevels]
  | cons e entries ih => rw [entryLevels, Nat.max_le, ih, List.forall_mem_cons]

theorem Value.levels_pos (v : Value) : 0 < v.levels := by
  cases v <;> simp [Value.levels]

/-- A value inside as many lists. -/
def Value.nested (v : Value) : Nat → Value
  | 0 => v
  | n + 1 => .list [v.nested n]

theorem Value.levels_nested (v : Value) (n : Nat) : (v.nested n).levels = v.levels + n := by
  induction n with
  | zero => rfl
  | succ n ih =>
    rw [nested, levels, itemLevels, itemLevels, ih, Nat.max_zero]
    rfl

/-- The levels of a value of a type, of which the lists and maps that the type names are none. -/
def FieldType.levels : FieldType → Value → Nat
  | .listOf item, .list items => (items.map item.levels).foldr max 0
  | .mapOf item, .map entries => (entries.map fun e => item.levels e.2).foldr max 0
  | _, v => v.levels

theorem foldr_max_le_iff {ns : List Nat} {n : Nat} : ns.foldr max 0 ≤ n ↔ ∀ m ∈ ns, m ≤ n := by
  induction ns with
  | nil => simp
  | cons m ns ih => rw [List.foldr_cons, Nat.max_le, ih, List.forall_mem_cons]

/-! ### Reductions -/

mutual

/-- A value reduced to what JSON can hold, however deep it is. -/
def Value.reduce : Value → Except Failure Value
  | .null => .ok .null
  | .bool b => .ok (.bool b)
  | .int n => .ok (.int n)
  | .float x => .ok (if x.isFinite then .float x else .null)
  | .decimal d => .ok (.text d.text)
  | .text s => .ok (.text s)
  | .bytes octets => (textOfBytes octets).map .text
  | .list items => (reduceItems items).map .list
  | .tuple items => (reduceItems items).map .list
  | .set items => (reduceItems items).map .list
  | .map entries => (reduceEntries entries).map .ofEntries
  | .object => .error .undumpable

def reduceItems : List Value → Except Failure (List Value)
  | [] => .ok []
  | v :: rest =>
    match v.reduce with
    | .error failure => .error failure
    | .ok v => (reduceItems rest).map (v :: ·)

def reduceEntries : List (Value × Value) → Except Failure (List (Value × Value))
  | [] => .ok []
  | (key, v) :: rest =>
    match key.dumpKey with
    | .error failure => .error failure
    | .ok key =>
      match v.reduce with
      | .error failure => .error failure
      | .ok v => (reduceEntries rest).map ((.text key, v) :: ·)

end

theorem reduceItems_eq (items : List Value) : reduceItems items = dumpEach Value.reduce items := by
  induction items with
  | nil => rfl
  | cons v items ih =>
    cases hv : v.reduce with
    | error failure => simp only [reduceItems, dumpEach, hv]
    | ok reduced => simp only [reduceItems, dumpEach, hv, ih]

theorem reduceEntries_eq (entries : Attributes) :
    reduceEntries entries = dumpEachEntry Value.reduce entries := by
  induction entries with
  | nil => rfl
  | cons e entries ih =>
    cases hkey : e.1.dumpKey with
    | error failure => simp only [reduceEntries, dumpEachEntry, hkey]
    | ok s =>
      cases hv : e.2.reduce with
      | error failure => simp only [reduceEntries, dumpEachEntry, hkey, hv]
      | ok reduced => simp only [reduceEntries, dumpEachEntry, hkey, hv, ih]

theorem dumpItems_eq (room : Nat) (items : List Value) :
    dumpItems room items = dumpEach (·.dumpWithin room) items := by
  induction items with
  | nil => rfl
  | cons v items ih => rw [dumpItems, dumpEach, ih]

theorem dumpEntries_eq (room : Nat) (entries : Attributes) :
    dumpEntries room entries = dumpEachEntry (·.dumpWithin room) entries := by
  induction entries with
  | nil => rfl
  | cons e entries ih => rw [dumpEntries, dumpEachEntry, ih]

namespace Value

theorem reduce_of_listItems? {v : Value} {items : List Value} (h : listItems? v = some items) :
    v.reduce = (dumpEach reduce items).map .list := by
  cases v with
  | list | tuple | set =>
    cases h
    rw [reduce, reduceItems_eq]
  | _ => cases h

theorem reduce_map (entries : Attributes) :
    (Value.map entries).reduce = (dumpEachEntry reduce entries).map .ofEntries := by
  rw [reduce, reduceEntries_eq]

theorem dumpWithin_of_listItems? {v : Value} {items : List Value} (h : listItems? v = some items)
    (room : Nat) : v.dumpWithin (room + 1) = (dumpEach (·.dumpWithin room) items).map .list := by
  cases v with
  | list | tuple | set =>
    cases h
    rw [dumpWithin, dumpItems_eq]
  | _ => cases h

theorem levels_of_listItems? {v : Value} {items : List Value} (h : listItems? v = some items) :
    v.levels = itemLevels items + 1 := by
  cases v with
  | list | tuple | set =>
    cases h
    rw [levels]
  | _ => cases h

/-- With room for its levels a value is dumped as its reduction. -/
theorem dumpWithin_eq_ok_iff {room : Nat} {v d : Value} :
    v.dumpWithin room = .ok d ↔ v.levels ≤ room ∧ v.reduce = .ok d := by
  -- The parts of a value have a level less, and a level less of room.
  induction v using induction_parts generalizing room d with
  | step v ih =>
    cases room with
    | zero =>
      rw [dumpWithin]
      simp [Nat.pos_iff_ne_zero.mp (levels_pos v)]
    | succ room =>
      have hlist : ∀ items, listItems? v = some items → (∀ w ∈ items, w ∈ v.parts) →
          (v.dumpWithin (room + 1) = .ok d ↔ v.levels ≤ room + 1 ∧ v.reduce = .ok d) := by
        intro items hitems hparts
        rw [dumpWithin_of_listItems? hitems, reduce_of_listItems? hitems,
          levels_of_listItems? hitems, Nat.add_le_add_iff_right, itemLevels_le_iff]
        simp only [map_eq_ok_iff, dumpEach_congr_of fun w hw d => ih w (hparts w hw)]
        tauto
      cases v with
      | list items | tuple items | set items => exact hlist items rfl fun _ hw => hw
      | map entries =>
        rw [dumpWithin, dumpEntries_eq, reduce_map, levels, Nat.add_le_add_iff_right,
          entryLevels_le_iff]
        simp only [map_eq_ok_iff, dumpEachEntry_congr_of
          (P := fun v => v.levels ≤ room) fun e he d => (forall_parts_map ih e he).2]
        tauto
      | _ => simp [dumpWithin, reduce, levels]

/-- A value that has a reduction fails to be dumped in one way only. -/
theorem eq_tooDeep_of_dumpWithin {room : Nat} {v d : Value} (hreduce : v.reduce = .ok d)
    {f : Failure} (h : v.dumpWithin room = .error f) : f = .tooDeep := by
  induction v using induction_parts generalizing room d with
  | step v ih =>
    cases room with
    | zero =>
      rw [dumpWithin] at h
      exact (Except.error.inj h).symm
    | succ room =>
      have hlist : ∀ items, listItems? v = some items → (∀ w ∈ items, w ∈ v.parts) →
          f = .tooDeep := by
        intro items hitems hparts
        rw [reduce_of_listItems? hitems, map_eq_ok_iff] at hreduce
        obtain ⟨reduced, hreduced, -⟩ := hreduce
        rw [dumpWithin_of_listItems? hitems, map_eq_error_iff] at h
        exact eq_tooDeep_of_dumpEach hreduced (fun w hw d hd => ih w (hparts w hw) hd) h
      cases v with
      | list items | tuple items | set items => exact hlist items rfl fun _ hw => hw
      | map entries =>
        rw [reduce_map, map_eq_ok_iff] at hreduce
        obtain ⟨reduced, hreduced, -⟩ := hreduce
        rw [dumpWithin, dumpEntries_eq, map_eq_error_iff] at h
        exact eq_tooDeep_of_dumpEachEntry hreduced
          (fun e he d hd => (forall_parts_map ih e he).2 hd) h
      | bytes octets =>
        rw [reduce] at hreduce
        rw [dumpWithin, hreduce] at h
        cases h
      | object => cases hreduce
      | _ => cases h

/-- A value is dumped as its reduction, if it has few enough levels. -/
theorem dump_eq_ok_iff {v d : Value} :
    v.dump = .ok d ↔ v.levels ≤ maxLevels ∧ v.reduce = .ok d := dumpWithin_eq_ok_iff

theorem eq_tooDeep_of_dump {v d : Value} (hreduce : v.reduce = .ok d) {f : Failure}
    (h : v.dump = .error f) : f = .tooDeep := eq_tooDeep_of_dumpWithin hreduce h

end Value

/-! ### Fields -/

/-- A value in a field is dumped as its reduction, if it has few enough levels. -/
theorem FieldType.dump_eq_ok_iff {type : FieldType} {v d : Value} :
    type.dump v = .ok d ↔ type.levels v ≤ Value.maxLevels ∧ v.reduce = .ok d := by
  -- A list or map that the type names leaves all the room to its parts.
  induction type generalizing v d with
  | listOf item ih =>
    cases v with
    | list items =>
      rw [dump, levels, Value.reduce_of_listItems? rfl, foldr_max_le_iff, List.forall_mem_map]
      simp only [map_eq_ok_iff, dumpEach_congr_of fun w _ d => ih]
      tauto
    | _ => exact Value.dump_eq_ok_iff
  | mapOf item ih =>
    cases v with
    | map entries =>
      rw [dump, levels, Value.reduce_map, foldr_max_le_iff, List.forall_mem_map]
      simp only [map_eq_ok_iff, dumpEachEntry_congr_of
        (P := fun v => item.levels v ≤ Value.maxLevels) fun e _ d => ih]
      tauto
    | _ => exact Value.dump_eq_ok_iff
  | _ => exact Value.dump_eq_ok_iff

/-- A value that has a reduction fails to be dumped in one way only, also in a field. -/
theorem FieldType.eq_tooDeep_of_dump {type : FieldType} {v d : Value} (hreduce : v.reduce = .ok d)
    {f : Failure} (h : type.dump v = .error f) : f = .tooDeep := by
  induction type generalizing v d with
  | listOf item ih =>
    cases v with
    | list items =>
      rw [Value.reduce_of_listItems? rfl, map_eq_ok_iff] at hreduce
      obtain ⟨reduced, hreduced, -⟩ := hreduce
      rw [dump, map_eq_error_iff] at h
      exact eq_tooDeep_of_dumpEach hreduced (fun _ _ _ hd => ih hd) h
    | _ => exact Value.eq_tooDeep_of_dump hreduce h
  | mapOf item ih =>
    cases v with
    | map entries =>
      rw [Value.reduce_map, map_eq_ok_iff] at hreduce
      obtain ⟨reduced, hreduced, -⟩ := hreduce
      rw [dump, map_eq_error_iff] at h
      exact eq_tooDeep_of_dumpEachEntry hreduced (fun _ _ _ hd => ih hd) h
    | _ => exact Value.eq_tooDeep_of_dump hreduce h
  | _ => exact Value.eq_tooDeep_of_dump hreduce h

/-- Named values as entries of a map. -/
def namedEntries (fields : List (String × FieldType × Value)) : Attributes :=
  fields.map fun field => (.text field.1, field.2.2)

section Fields

variable {fields : List (String × FieldType × Value)} {dumped : Attributes}

theorem dumpFields_eq_ok_iff : dumpFields fields = .ok dumped ↔
    (∀ field ∈ fields, field.2.1.levels field.2.2 ≤ Value.maxLevels) ∧
      dumpEachEntry Value.reduce (namedEntries fields) = .ok dumped := by
  induction fields generalizing dumped with
  | nil => simp [dumpFields, namedEntries, dumpEachEntry]
  | cons field fields ih =>
    obtain ⟨name, type, v⟩ := field
    have hentries : namedEntries ((name, type, v) :: fields) = (.text name, v) :: namedEntries fields :=
      rfl
    rw [dumpFields, List.forall_mem_cons, hentries, dumpEachEntry_eq_ok_iff,
      List.forall₂_cons_left_iff]
    simp only [← dumpEachEntry_eq_ok_iff]
    cases hv : type.dump v with
    | error failure =>
      have hno : ∀ d, ¬ (type.levels v ≤ Value.maxLevels ∧ v.reduce = .ok d) := by
        intro d hd
        cases hv.symm.trans (FieldType.dump_eq_ok_iff.mpr hd)
      -- The first field fails on both sides.
      constructor
      · intro h
        cases h
      · rintro ⟨⟨hlevels, -⟩, e, -, ⟨s, -, -, hd⟩, -⟩
        exact absurd ⟨hlevels, hd⟩ (hno _)
    | ok d =>
      obtain ⟨hlevels, hd⟩ := FieldType.dump_eq_ok_iff.mp hv
      simp only [map_eq_ok_iff, ih]
      constructor
      · rintro ⟨others, ⟨hall, hothers⟩, rfl⟩
        exact ⟨⟨hlevels, hall⟩, _, others, ⟨name, rfl, rfl, hd⟩, hothers, rfl⟩
      · rintro ⟨⟨-, hall⟩, ⟨key, d'⟩, others, ⟨s, hs, hkey, hd'⟩, hothers, rfl⟩
        cases hd.symm.trans hd'
        cases hs
        exact ⟨others, ⟨hall, hothers⟩, by rw [← hkey]⟩

theorem eq_tooDeep_of_dumpFields
    (hreduce : dumpEachEntry Value.reduce (namedEntries fields) = .ok dumped)
    {f : Failure} (h : dumpFields fields = .error f) : f = .tooDeep := by
  induction fields generalizing dumped with
  | nil => cases h
  | cons field fields ih =>
    obtain ⟨name, type, v⟩ := field
    obtain ⟨e, others, ⟨s, -, -, hd⟩, hothers, rfl⟩ :=
      List.forall₂_cons_left_iff.mp (dumpEachEntry_eq_ok_iff.mp hreduce)
    rw [dumpFields] at h
    cases hv : type.dump v with
    | error failure =>
      rw [hv] at h
      cases h
      exact FieldType.eq_tooDeep_of_dump hd hv
    | ok d =>
      rw [hv] at h
      exact ih (dumpEachEntry_eq_ok_iff.mpr hothers) (map_eq_error_iff.mp h)

end Fields

end Rollout
