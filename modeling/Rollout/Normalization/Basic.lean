/-
The result of sorting attributes into fields and properties.

* `Normalization` — the values of canonical keys, and everything else under its own name;
* `Normalization.merge` — two results of one shape, the second taking precedence.
-/
import Rollout.CanonicalKey
import Rollout.Value

namespace Rollout

/-- Attributes sorted for a record shape.  `canonical` never holds the key of the custom
properties, which are in `overflow`. -/
structure Normalization where
  shape : Shape
  canonical : Assoc CanonicalKey Value
  overflow : Attributes
deriving Repr

namespace Normalization

/-- Whether a key that identifies a subject has a value. -/
def hasIdentity (n : Normalization) : Bool :=
  CanonicalKey.identity.any fun key => ((Assoc.find? key n.canonical).getD .null).isTruthy

/-- Both results in one, with the values of `other` where both have one. -/
def merge (n other : Normalization) : Normalization where
  shape := n.shape
  canonical := Assoc.update n.canonical other.canonical
  overflow := Assoc.update n.overflow other.overflow

/-- The canonical values under the names they are sent under. -/
def fields (n : Normalization) : Assoc String Value :=
  n.canonical.map fun (key, value) => (key.wireName, value)

/-- The result with one canonical value written. -/
def put (key : CanonicalKey) (value : Value) (n : Normalization) : Normalization :=
  { n with canonical := Assoc.insert key value n.canonical }

end Normalization

end Rollout
