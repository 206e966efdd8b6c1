/-
What the assignment service returns for one flag.

* `Variant.ofValue` — a variant from the service's map, unknown entries ignored;
* `Variant.details` — the metadata attached to a resolved result.
-/
import Rollout.FieldType

namespace Rollout

/-- One flag's assignment. -/
structure Variant where
  key : String
  value : Option String
  payload : Value
  metadata : Attributes
deriving Repr

/-- Variants by their flags. -/
abbrev Variants := Assoc String Variant

namespace Variant

/-- The key of the variant for subjects outside a rollout. -/
def offKey : String := "off"

/-- Whether the subject is outside the rollout. -/
def isOff (v : Variant) : Bool := v.key == offKey

/-- The text under a name, which must be there. -/
def readKey (entries : Attributes) : Except (List Path) String :=
  match (Assoc.find? (.text "key") entries).bind convertText with
  | some (.text s) => .ok s
  | _ => .error [[.name "key"]]

/-- The text under a name that may be missing or null. -/
def readName (entries : Attributes) : Except (List Path) (Option String) :=
  match (Assoc.find? (.text "value") entries).getD .null with
  | .null => .ok none
  | v =>
    match convertText v with
    | some (.text s) => .ok (some s)
    | _ => .error [[.name "value"]]

/-- The metadata, empty when missing. -/
def readMetadata (entries : Attributes) : Except (List Path) Attributes :=
  match below (.name "metadata")
      ((FieldType.mapOf .anything).convert
        ((Assoc.find? (.text "metadata") entries).getD (.map []))) with
  | .ok v => .ok v.entries
  | .error paths => .error paths

/-- A variant from a map, or the paths of the parts that do not fit. -/
def ofMap (entries : Attributes) : Except (List Path) Variant :=
  match readKey entries, readName entries, readMetadata entries with
  | .ok key, .ok value, .ok metadata =>
    .ok ⟨key, value, (Assoc.find? (.text "payload") entries).getD .null, metadata⟩
  | key, value, metadata => .error (faults key ++ faults value ++ faults metadata)

/-- A variant from any value. -/
def ofValue : Value → Except Failure Variant
  | .map entries =>
    match ofMap entries with
    | .ok variant => .ok variant
    | .error paths => .error (.invalid "Variant" paths)
  | _ => .error (.invalid "Variant" [[]])

/-- Variants from the values of their flags; the first that is invalid is a failure. -/
def ofFlags : List (String × Value) → Except Failure Variants
  | [] => .ok []
  | (flag, v) :: rest =>
    match ofValue v with
    | .error failure => .error failure
    | .ok variant => (ofFlags rest).map ((flag, variant) :: ·)

/-- The key, the value if there is one, and the metadata that is set under other names. -/
def details (v : Variant) : Attributes :=
  let own : Attributes := (.text "key", .text v.key) ::
    match v.value with
    | some value => [(.text "value", .text value)]
    | none => []
  v.metadata.foldl
    (fun entries entry =>
      if entry.2.isNull then entries else Assoc.insertNew entry.1 entry.2 entries) own

end Variant

end Rollout
