/-
Sorting attributes into the fields of a record and a bag of custom properties.

Nothing is dropped: a name that stands for no field of the shape, and a plain value for a field
that holds a map, go into the bag under the caller's name.  A map passed under the name of the bag
is merged into it, and attributes of the same name win over its entries.

* `fieldFor?` — where one attribute belongs;
* `normalize` — all attributes of a context;
* `normalizeSubject` — the same, for a context that must identify someone.
-/
import Rollout.AliasTable

namespace Rollout

/-- The field that an attribute belongs to; none when it belongs into the bag. -/
def fieldFor? (table : AliasTable) (shape : Shape) (name value : Value) : Option CanonicalKey :=
  match name with
  | .text spelling =>
    match table.lookup spelling with
    | some key =>
      if !shape.accepts key then none
      else if key = shape.overflowKey then some key
      -- A null is no loose value: it unsets the field, whatever the field holds.
      else if key.holdsMap && !value.isNull && !value.isMap then none
      else some key
    | none => none
  | _ => none

/-- Attributes while they are sorted.  `bag` is what the caller passed for the bag, with its
name. -/
structure Sorting where
  canonical : Assoc CanonicalKey Value
  loose : Attributes
  bag : Option (Value × Value)
deriving Repr

namespace Sorting

def empty : Sorting := ⟨[], [], none⟩

/-- One more attribute.  The last of several attributes for one field wins. -/
def add (table : AliasTable) (shape : Shape) (s : Sorting) (entry : Value × Value) :
    Sorting :=
  match fieldFor? table shape entry.1 entry.2 with
  | none => { s with loose := Assoc.insert entry.1 entry.2 s.loose }
  | some key =>
    if key = shape.overflowKey then { s with bag := some entry }
    else { s with canonical := Assoc.insert key entry.2 s.canonical }

/-- What the caller passed for the bag, as entries of the bag. -/
def bagEntries (s : Sorting) : Attributes :=
  match s.bag with
  | none => []
  | some (_, .map entries) => entries
  | some (_, .null) => []
  | some (name, value) => [(name, value)]

/-- The bag: what the caller passed for it, and the loose attributes. -/
def overflow (s : Sorting) : Attributes := Assoc.update (Assoc.ofEntries s.bagEntries) s.loose

end Sorting

/-- The attributes sorted for a shape. -/
def normalize (table : AliasTable) (shape : Shape) (attributes : Attributes) : Normalization :=
  let s := attributes.foldl (Sorting.add table shape) Sorting.empty
  ⟨shape, s.canonical, s.overflow⟩

/-- The attributes sorted for a subject, which they must identify. -/
def normalizeSubject (table : AliasTable) (attributes : Attributes) :
    Except Failure Normalization :=
  let record := normalize table .subject attributes
  if record.hasIdentity then .ok record
  else .error (.invalidContext
    ("context must contain a " ++ targetingKey ++ ", " ++ CanonicalKey.userId.wireName
      ++ ", or " ++ CanonicalKey.deviceId.wireName) record none)

end Rollout
