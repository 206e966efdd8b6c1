/-
Sorting what has been sorted.

The result of sorting can be written as a map again: every value under the name of its key, and the
custom properties as a map under theirs.  Sorting that map changes nothing.  A value that was kept
in a field is kept there again, since it is placed under its key already; and a custom property stays
one whatever its name stands for, as it is inside the map that is passed for the bag.

* `AliasTable.NamesKeys` — tables in which the name of a key stands for the key;
* `Normalization.Settled` — values and properties as sorting leaves them;
* `settled_normalize`, `Settled.merge`, `Settled.put` — what leaves such values;
* `Settled.fieldMap_eq` — the properties are written over nothing;
* `normalize_fixpoint` — sorting a result of sorting gives it back.
-/
import Rollout.Proofs.AliasTable
import Rollout.Proofs.Normalization.Rearranged
import Rollout.Proofs.Normalization.Routing
import Rollout.Proofs.Record.Projection

namespace Rollout

/-- In the table, the name of every key of the shape stands for the key. -/
def AliasTable.NamesKeys (table : AliasTable) (shape : Shape) : Prop :=
  ∀ key, shape.accepts key = true → table.lookup key.wireName = some key

theorem AliasTable.namesKeys_standard (shape : Shape) : standard.NamesKeys shape :=
  fun key _ => lookup_standard_wireName key

namespace Normalization

variable {shape : Shape} {n m : Normalization}

/-- Values that stand under keys of a shape that can hold them, each key once and none for the custom
properties, and properties whose names are distinct. -/
structure Settled (shape : Shape) (n : Normalization) : Prop extends Sorted shape n where
  ofShape : n.shape = shape
  field : ∀ e ∈ n.canonical, e.1 ≠ shape.overflowKey
  placed : ∀ e ∈ n.canonical, misplaced e.1 e.2 = false
  properties : Assoc.Distinct n.overflow

/-- Sorting leaves settled values. -/
theorem settled_normalize (table : AliasTable) (shape : Shape) (attributes : Attributes) :
    (normalize table shape attributes).Settled shape := by
  have hmem : ∀ e ∈ Assoc.ofEntries (fieldEntries table shape attributes),
      e ∈ fieldEntries table shape attributes := fun e he => Assoc.mem_of_mem_ofEntries he
  rw [normalize_eq]
  exact {
    accepted := fun e he => (shape.mem_keys_iff _).mpr (of_mem_fieldEntries (hmem e he)).1
    distinct := Assoc.distinct_ofEntries _
    ofShape := rfl
    field := fun e he => (of_mem_fieldEntries (hmem e he)).2.1
    placed := fun e he => (of_mem_fieldEntries (hmem e he)).2.2
    properties := (Assoc.distinct_ofEntries _).update _ }

namespace Settled

variable (hn : n.Settled shape)
include hn

/-- Putting settled values together leaves settled values. -/
theorem merge (hm : m.Settled shape) : (n.merge m).Settled shape := by
  have hmem : ∀ e ∈ (n.merge m).canonical, e ∈ n.canonical ∨ e ∈ m.canonical :=
    fun e he => Assoc.mem_or_mem_of_mem_update hn.distinct hm.distinct he
  exact {
    accepted := fun e he => (hmem e he).elim (hn.accepted e) (hm.accepted e)
    distinct := hn.distinct.update _
    ofShape := hn.ofShape
    field := fun e he => (hmem e he).elim (hn.field e) (hm.field e)
    placed := fun e he => (hmem e he).elim (hn.placed e) (hm.placed e)
    properties := hn.properties.update _ }

/-- A value for another field can be put among settled values. -/
theorem put {key : CanonicalKey} {value : Value} (haccepts : shape.accepts key = true)
    (hother : key ≠ shape.overflowKey) (hplaced : misplaced key value = false) :
    (n.put key value).Settled shape := by
  have hmem : ∀ e ∈ (n.put key value).canonical, e ∈ n.canonical ∨ e = (key, value) := by
    intro e he
    have hone : Assoc.Distinct [(key, value)] := List.pairwise_singleton _ _
    exact (Assoc.mem_or_mem_of_mem_update hn.distinct hone he).imp_right List.mem_singleton.mp
  exact {
    accepted := fun e he => (hmem e he).elim (hn.accepted e)
      fun h => h ▸ (shape.mem_keys_iff key).mpr haccepts
    distinct := hn.distinct.insert key value
    ofShape := hn.ofShape
    field := fun e he => (hmem e he).elim (hn.field e) fun h => h ▸ hother
    placed := fun e he => (hmem e he).elim (hn.placed e) fun h => h ▸ hplaced
    properties := hn.properties }

/-- The properties are written under a name that is free. -/
theorem insert_overflow (value : Value) : Assoc.insert shape.overflowKey.wireName value n.fields
    = n.fields ++ [(shape.overflowKey.wireName, value)] := by
  refine Assoc.insert_of_forall_ne fun e he => ?_
  obtain ⟨x, hx, rfl⟩ := List.mem_map.mp he
  exact beq_false_of_ne fun hname => hn.field x hx (wireName_injective hname)

/-- The map of the fields: every value under the name of its key, and last the properties. -/
theorem fieldMap_eq : n.fieldMap shape
    = n.canonical.map (fun e => (Value.text e.1.wireName, e.2))
      ++ [(.text shape.overflowKey.wireName, .map n.overflow)] := by
  rw [fieldMap, hn.insert_overflow, List.map_append, fields, List.map_map]
  rfl

/-! ### The map of the fields, sorted -/

section Table

variable {table : AliasTable} (htable : table.NamesKeys shape)
include htable

omit hn in
theorem resolve?_wireName {key : CanonicalKey} (hkey : shape.accepts key = true) :
    table.resolve? shape (.text key.wireName) = some key := by
  show (table.lookup key.wireName).filter (shape.accepts ·) = some key
  rw [htable key hkey, Option.filter_some, if_pos hkey]

/-- The name of a value that was kept is that of its field. -/
theorem fieldFor?_of_mem {e : CanonicalKey × Value} (he : e ∈ n.canonical) :
    fieldFor? table shape (.text e.1.wireName) e.2 = some e.1 := by
  have haccepts := (shape.mem_keys_iff e.1).mp (hn.accepted e he)
  exact fieldFor?_of_placed (resolve?_wireName htable haccepts) (hn.placed e he)

omit hn in
theorem fieldFor?_overflow : fieldFor? table shape (.text shape.overflowKey.wireName)
    (.map n.overflow) = some shape.overflowKey := by
  refine fieldFor?_of_placed (resolve?_wireName htable (accepts_overflowKey shape)) ?_
  rw [misplaced, Value.isMap, Bool.not_true, Bool.and_false]

theorem fieldEntries_fieldMap : fieldEntries table shape (n.fieldMap shape) = n.canonical := by
  have hkept : ∀ e ∈ n.canonical, ((fieldFor? table shape (.text e.1.wireName) e.2).filter
      (· ≠ shape.overflowKey)).map (·, e.2) = some e := by
    intro e he
    rw [hn.fieldFor?_of_mem htable he, Option.filter_some, if_pos (decide_eq_true (hn.field e he))]
    rfl
  have hbag : fieldEntries table shape [(.text shape.overflowKey.wireName, .map n.overflow)] = [] := by
    simp [fieldEntries, fieldFor?_overflow htable]
  rw [hn.fieldMap_eq, fieldEntries, List.filterMap_append, ← fieldEntries, ← fieldEntries, hbag,
    List.append_nil, fieldEntries, List.filterMap_map]
  exact (List.filterMap_congr hkept).trans List.filterMap_some

theorem bagOf_fieldMap : bagOf table shape (n.fieldMap shape) = n.overflow := by
  rw [bagOf, bagEntries, hn.fieldMap_eq, List.filter_append,
    List.filter_cons_of_pos (by simp [fieldFor?_overflow htable]), List.filter_nil,
    List.map_append, List.map_singleton, List.getLast?_append]
  rfl

theorem looseEntries_fieldMap : looseEntries table shape (n.fieldMap shape) = [] := by
  rw [looseEntries, List.filter_eq_nil_iff, hn.fieldMap_eq]
  intro e he
  rcases List.mem_append.mp he with he | he
  · obtain ⟨x, hx, rfl⟩ := List.mem_map.mp he
    simp [hn.fieldFor?_of_mem htable hx]
  · obtain rfl := List.mem_singleton.mp he
    simp [fieldFor?_overflow htable]

/-- Sorting settled values gives them back. -/
theorem normalize_fieldMap : normalize table shape (n.fieldMap shape) = n := by
  rw [normalize_eq, hn.fieldEntries_fieldMap htable, hn.bagOf_fieldMap htable,
    hn.looseEntries_fieldMap htable, hn.distinct.ofEntries_eq, hn.properties.ofEntries_eq]
  show Normalization.mk shape n.canonical n.overflow = n
  rw [← hn.ofShape]

end Table

end Settled

end Normalization

/-- **Sorting is settled after one pass.**  For every table in which the names of the keys stand for
the keys, as they do in the standard one, the values and properties that sorting leaves are left again
when they are sorted as a map.  None of the values is for a key that the shape does not have or for the
properties, which are therefore added to the values and replace none of them. -/
theorem normalize_fixpoint (shape : Shape) :
    AliasTable.standard.NamesKeys shape ∧
      ∀ table : AliasTable, table.NamesKeys shape → ∀ attributes : Attributes,
        let n := normalize table shape attributes
        normalize table shape (n.fieldMap shape) = n ∧
          (∀ e ∈ n.canonical, shape.accepts e.1 = true ∧ e.1 ≠ shape.overflowKey) ∧
          Assoc.insert shape.overflowKey.wireName (.map n.overflow) n.fields
            = n.fields ++ [(shape.overflowKey.wireName, .map n.overflow)] := by
  refine ⟨AliasTable.namesKeys_standard shape, fun table htable attributes => ?_⟩
  have hn := Normalization.settled_normalize table shape attributes
  refine ⟨hn.normalize_fieldMap htable, fun e he => ?_, hn.insert_overflow _⟩
  exact ⟨(shape.mem_keys_iff e.1).mp (hn.accepted e he), hn.field e he⟩

/-- A plain value for a field that holds a map and a custom property with the name of a field are
properties, before and after, and a field that is unset stays so. -/
theorem normalize_fixpoint_diverted :
    let table : AliasTable := ("sku", .productId) :: CanonicalKey.all.map fun key => (key.wireName, key)
    let attributes : Attributes := [(.text "sku", .text "p1"), (.text "plan", .text "pro"),
      (.text "groups", .null), (.int 7, .bool true),
      (.text "event_properties", .map [(.text "currency", .text "EUR")])]
    let n := normalize table .occurrence attributes
    n.canonical = [(.productId, .text "p1"), (.groups, .null)] ∧
      n.overflow = [(.text "currency", .text "EUR"), (.text "plan", .text "pro"),
        (.int 7, .bool true)] ∧
      table.NamesKeys .occurrence ∧ normalize table .occurrence (n.fieldMap .occurrence) = n := by
  intro table attributes n
  have hnames : ∀ key ∈ CanonicalKey.all, table.lookup key.wireName = some key := by
    decide +kernel
  have htable : table.NamesKeys .occurrence := fun key _ => hnames key key.mem_all
  refine ⟨rfl, rfl, htable, ?_⟩
  exact ((normalize_fixpoint .occurrence).2 table htable attributes).1

end Rollout
