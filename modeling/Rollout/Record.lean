/-
The records that are sent to the assignment and analytics services.

A record has a value for every key of its shape; a field that is not set holds `null`.  The types
of the fields are declared here once, and reading a record from a map reports every field that is
missing, unknown or of the wrong type.

* `Shape.fieldType`, `Shape.isNullable` — what a field holds;
* `Record.ofMap` — a record from a map of field names;
* `Record.model` — the fields that are set, under the names they are sent under.
-/
import Rollout.FieldType

namespace Rollout

namespace Shape

/-- The type of the field of a key. -/
def fieldType (shape : Shape) (key : CanonicalKey) : FieldType :=
  match shape, key with
  | _, .time | _, .quantity | _, .eventId | _, .sessionId => .integer
  | _, .locationLat | _, .locationLng | _, .price | _, .revenue => .number
  | .subject, .groupProperties => .mapOf (.mapOf .anything)
  | _, .userProperties | _, .groupProperties | _, .plan | _, .ingestionMetadata
  | _, .eventProperties => .mapOf .anything
  | _, .groups => .mapOf (.listOf .text)
  | _, .cohortIds => .listOf .text
  | _, .groupCohortIds => .mapOf (.mapOf (.listOf .text))
  | _, _ => .text

/-- Whether the field of a key may be null. -/
def isNullable (shape : Shape) (key : CanonicalKey) : Bool :=
  key != shape.overflowKey && key != .eventType

/-- The value of a field that is not given; none for a field that must be. -/
def default? (shape : Shape) (key : CanonicalKey) : Option Value :=
  if key = shape.overflowKey then some (.map [])
  else if key = .eventType then none
  else some .null

end Shape

/-- The fields of a record. -/
structure Record (shape : Shape) where
  field : CanonicalKey → Value

/-- Who a flag is evaluated for. -/
abbrev Subject := Record .subject

/-- A tracked event. -/
abbrev Occurrence := Record .occurrence

namespace Record

variable {shape : Shape}

/-- The record with one field changed. -/
def set (key : CanonicalKey) (value : Value) (r : Record shape) : Record shape :=
  ⟨fun k => if k = key then value else r.field k⟩

/-- The fields that are set, in the order of their declaration. -/
def model (r : Record shape) : Assoc String Value :=
  (shape.keys.filter fun key => !(r.field key).isNull).map
    fun key => (key.wireName, r.field key)

/-- Whether a subject is identified. -/
def hasIdentity (r : Record shape) : Bool :=
  CanonicalKey.identity.any fun key => (r.field key).isTruthy

/-- The name under which a map gives a field: the one it is sent under, or its own. -/
def givenName? (key : CanonicalKey) (entries : Attributes) : Option String :=
  if Assoc.contains (.text key.wireName) entries then some key.wireName
  else if Assoc.contains (.text key.fieldName) entries then some key.fieldName
  else none

/-- A value fitted to the field of a key. -/
def fit (shape : Shape) (key : CanonicalKey) (value : Value) : Except (List Path) Value :=
  if value.isNull && shape.isNullable key then .ok .null
  else (shape.fieldType key).convert value

/-- The field of a key, read from a map. -/
def readField (shape : Shape) (entries : Attributes) (key : CanonicalKey) :
    Except (List Path) Value :=
  match givenName? key entries with
  | some name =>
    below (.name name) (fit shape key ((Assoc.find? (.text name) entries).getD .null))
  | none =>
    match shape.default? key with
    | some value => .ok value
    | none => .error [[.name key.wireName]]

/-- The paths of the entries that give no field. -/
def unknownEntries (shape : Shape) (entries : Attributes) : List Path :=
  let given := (shape.keys.filterMap (givenName? · entries)).map Value.text
  (entries.filter fun entry => !given.contains entry.1).map fun entry => [Step.ofKey entry.1]

/-- A field of a record from the values of all its keys. -/
def ofValues (shape : Shape) (values : List Value) : Record shape :=
  ⟨fun key => ((shape.keys.zip values).lookup key).getD .null⟩

/-- A record from a map of its fields, or the paths of all that is wrong with it. -/
def ofMap (shape : Shape) (entries : Attributes) : Except (List Path) (Record shape) :=
  match gather (shape.keys.map (readField shape entries)), unknownEntries shape entries with
  | .ok values, [] => .ok (ofValues shape values)
  | .ok _, unknown => .error unknown
  | .error paths, unknown => .error (paths ++ unknown)

/-- A record from any value. -/
def ofValue (shape : Shape) : Value → Except Failure (Record shape)
  | .map entries =>
    match ofMap shape entries with
    | .ok record => .ok record
    | .error paths => .error (.invalid shape.recordName paths)
  | _ => .error (.invalid shape.recordName [[]])

/-- Writes any value into the field of a name. -/
def assign (name : String) (value : Value) (r : Record shape) : Except Failure (Record shape) :=
  match CanonicalKey.ofFieldName? name with
  | some key =>
    if shape.accepts key then .ok (r.set key value)
    else .error (.noField shape.recordName name)
  | none => .error (.noField shape.recordName name)

/-- Writes an entry into the custom properties. -/
def setProperty (name : Value) (value : Value) (r : Record shape) :
    Except Failure (Record shape) :=
  match r.field shape.overflowKey with
  | .map entries => .ok (r.set shape.overflowKey (.map (Assoc.insert name value entries)))
  | other => .error (.notAssignable other)

end Record

end Rollout
