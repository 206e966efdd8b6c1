/-
What sorting attributes leaves.

An attribute is for a field of the shape, for the bag of custom properties, or loose.  Sorting writes
the first into their fields in order, and into the bag the last map that was passed for it and over
that the loose ones.

* `AliasTable.resolve?` — the key of a shape that a name stands for;
* `fieldEntries`, `bagEntries`, `looseEntries` — the three kinds of attributes;
* `normalize_eq` — sorting in terms of the three.
-/
import Rollout.Normalization
import Rollout.Proofs.Assoc

namespace Rollout

/-- The key that a name stands for, if the shape accepts it. -/
def AliasTable.resolve? (table : AliasTable) (shape : Shape) : Value → Option CanonicalKey
  | .text spelling => (table.lookup spelling).filter (shape.accepts ·)
  | _ => none

/-- A value that cannot be kept in a field for maps. -/
def misplaced (key : CanonicalKey) (value : Value) : Bool :=
  key.holdsMap && !value.isNull && !value.isMap

variable (table : AliasTable) (shape : Shape)

theorem fieldFor?_eq (name value : Value) :
    fieldFor? table shape name value = (table.resolve? shape name).filter fun key =>
      decide (key = shape.overflowKey) || !misplaced key value := by
  unfold fieldFor? AliasTable.resolve?
  cases name with
  | text spelling =>
    dsimp only
    cases table.lookup spelling with
    | none => rfl
    | some key =>
      cases haccepts : shape.accepts key with
      | false => simp [haccepts, Option.filter_some]
      | true =>
        by_cases hkey : key = shape.overflowKey
        · subst hkey
          simp [haccepts, Option.filter_some]
        · cases hmisplaced : misplaced key value with
          | false =>
            have hmisplaced' := hmisplaced
            rw [misplaced] at hmisplaced'
            simp [haccepts, hkey, hmisplaced, hmisplaced', Option.filter_some]
          | true =>
            have hmisplaced' := hmisplaced
            rw [misplaced] at hmisplaced'
            simp [haccepts, hkey, hmisplaced, hmisplaced', Option.filter_some]
  | _ => rfl

variable {table shape} in
theorem resolve?_of_fieldFor? {name value : Value} {key : CanonicalKey}
    (h : fieldFor? table shape name value = some key) : table.resolve? shape name = some key := by
  rw [fieldFor?_eq] at h
  exact (Option.filter_eq_some_iff.mp h).1

/-- The attributes for fields, with the keys of the fields. -/
def fieldEntries (attributes : Attributes) : Assoc CanonicalKey Value :=
  attributes.filterMap fun e =>
    ((fieldFor? table shape e.1 e.2).filter (· ≠ shape.overflowKey)).map (·, e.2)

variable {table shape} in
/-- An attribute is for a field of the shape that can hold its value. -/
theorem of_mem_fieldEntries {attributes : Attributes} {e : CanonicalKey × Value}
    (h : e ∈ fieldEntries table shape attributes) :
    shape.accepts e.1 = true ∧ e.1 ≠ shape.overflowKey ∧ misplaced e.1 e.2 = false := by
  obtain ⟨x, -, hx⟩ := List.mem_filterMap.mp h
  obtain ⟨key, hkey, rfl⟩ := Option.map_eq_some_iff.mp hx
  obtain ⟨hfield, hother⟩ := Option.filter_eq_some_iff.mp hkey
  have hother : key ≠ shape.overflowKey := of_decide_eq_true hother
  rw [fieldFor?_eq, Option.filter_eq_some_iff] at hfield
  obtain ⟨hresolve, hplaced⟩ := hfield
  refine ⟨?_, hother, by simpa [hother] using hplaced⟩
  cases hname : x.1 with
  | text spelling =>
    rw [hname] at hresolve
    exact (Option.filter_eq_some_iff.mp hresolve).2
  | _ =>
    rw [hname] at hresolve
    cases hresolve

/-- The attributes for the bag. -/
def bagEntries (attributes : Attributes) : Attributes :=
  attributes.filter fun e => fieldFor? table shape e.1 e.2 = some shape.overflowKey

/-- The attributes for neither a field nor the bag. -/
def looseEntries (attributes : Attributes) : Attributes :=
  attributes.filter fun e => (fieldFor? table shape e.1 e.2).isNone

/-- The entries that an attribute for the bag stands for. -/
def bagContents : Value × Value → Attributes
  | (_, .map entries) => entries
  | (_, .null) => []
  | (name, value) => [(name, value)]

/-- What the bag begins with: that which the last attribute for it stands for. -/
def bagOf (attributes : Attributes) : Attributes :=
  ((bagEntries table shape attributes).map bagContents).getLast?.getD []

theorem foldl_add (attributes : Attributes) (s : Sorting) :
    attributes.foldl (Sorting.add table shape) s
      = ⟨Assoc.update s.canonical (fieldEntries table shape attributes),
        Assoc.update s.loose (looseEntries table shape attributes),
        (bagEntries table shape attributes).getLast?.or s.bag⟩ := by
  induction attributes generalizing s with
  | nil => rfl
  | cons e attributes ih =>
    rw [List.foldl_cons, ih, Sorting.add]
    cases hfield : fieldFor? table shape e.1 e.2 with
    | none => simp [hfield, fieldEntries, looseEntries, bagEntries, Assoc.update]
    | some key =>
      by_cases hkey : key = shape.overflowKey
      · have hbag : bagEntries table shape (e :: attributes)
            = e :: bagEntries table shape attributes :=
          List.filter_cons_of_pos (by simp [hfield, hkey])
        rw [hbag, List.getLast?_cons]
        simp only [hkey, if_true]
        cases (bagEntries table shape attributes).getLast? <;>
          simp [hfield, hkey, fieldEntries, looseEntries]
      · simp [hfield, hkey, fieldEntries, looseEntries, bagEntries, Assoc.update, Option.filter_some]

/-- **Sorting attributes.**  The attributes for fields are written into them in order, and the loose
ones over what the last attribute for the bag stands for. -/
theorem normalize_eq (attributes : Attributes) :
    normalize table shape attributes
      = ⟨shape, Assoc.ofEntries (fieldEntries table shape attributes),
        Assoc.update (Assoc.ofEntries (bagOf table shape attributes))
          (Assoc.ofEntries (looseEntries table shape attributes))⟩ := by
  have hcontents : ∀ s : Sorting, s.bagEntries = (s.bag.map bagContents).getD [] := by
    intro s
    unfold Sorting.bagEntries bagContents
    cases s.bag with
    | none => rfl
    | some e =>
      obtain ⟨name, value⟩ := e
      cases value <;> rfl
  simp only [normalize, foldl_add, Sorting.empty, Option.or_none, Sorting.overflow, hcontents,
    bagOf, List.getLast?_map]
  rfl

end Rollout
