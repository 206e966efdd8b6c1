/-
The values that contexts, payloads and properties are made of.

Callers pass whatever they have, so a value is of one of a dozen kinds.  Two values are the same
key of a map when they are the same text or the same number: a whole float, a decimal and a truth
value count as the numbers they stand for.  A `nan` and an unknown object are never the same key.

* `Value.isTruthy` — whether a value counts as given;
* `Value.sameKey` — equality of map keys;
* `Value.lookup?` — the value under a textual key of a map.
-/
import Rollout.Assoc
import Rollout.Number.Decimal

namespace Rollout

/-- A dynamic value.  The keys of a map are values as well, in order of insertion. -/
inductive Value
  | null
  | bool (b : Bool)
  | int (n : Int)
  | float (x : Binary64)
  | decimal (d : Decimal)
  | text (s : String)
  | bytes (octets : List UInt8)
  | list (items : List Value)
  | tuple (items : List Value)
  | set (items : List Value)
  | map (entries : List (Value × Value))
  | object
deriving Repr, Inhabited

namespace Value

def isNull : Value → Bool
  | .null => true
  | _ => false

def isMap : Value → Bool
  | .map _ => true
  | _ => false

/-- Whether a value counts as given: not absent, not false, not zero and not empty. -/
def isTruthy : Value → Bool
  | .null => false
  | .bool b => b
  | .int n => n != 0
  | .float x => !x.isZero
  | .decimal d => !d.isZero
  | .text s => s != ""
  | .bytes octets => !octets.isEmpty
  | .list items => !items.isEmpty
  | .tuple items => !items.isEmpty
  | .set items => !items.isEmpty
  | .map entries => !entries.isEmpty
  | .object => true

/-- The name of a value's kind in messages. -/
def kindName : Value → String
  | .null => "NoneType"
  | .bool _ => "bool"
  | .int _ => "int"
  | .float _ => "float"
  | .decimal _ => "Decimal"
  | .text _ => "str"
  | .bytes _ => "bytes"
  | .list _ => "list"
  | .tuple _ => "tuple"
  | .set _ => "set"
  | .map _ => "dict"
  | .object => "object"

/-- A number as a key: an exact quotient or an infinity. -/
inductive Quantity
  | exact (q : Rat)
  | infinite (negative : Bool)
deriving DecidableEq

/-- The number that a value stands for, if it is one. -/
def quantity? : Value → Option Quantity
  | .bool b => some (.exact (if b then 1 else 0))
  | .int n => some (.exact n)
  | .float (.infinity negative) => some (.infinite negative)
  | .float x => x.toRat?.map .exact
  | .decimal (.infinity negative) => some (.infinite negative)
  | .decimal d => d.toRat?.map .exact
  | _ => none

/-- Whether two values that are neither texts nor containers are the same number. -/
def sameQuantity (a b : Value) : Bool :=
  match a.quantity?, b.quantity? with
  | some p, some q => decide (p = q)
  | _, _ => false

mutual

/-- Whether two values are the same key. -/
def sameKey : Value → Value → Bool
  | .null, .null => true
  | .text a, .text b => a == b
  | .bytes a, .bytes b => a == b
  | .int a, .int b => a == b
  | .tuple a, .tuple b => sameKeys a b
  | a, b => sameQuantity a b

/-- Whether two lists hold the same keys, one by one. -/
def sameKeys : List Value → List Value → Bool
  | [], [] => true
  | a :: as, b :: bs => sameKey a b && sameKeys as bs
  | _, _ => false

end

instance : BEq Value := ⟨sameKey⟩

/-- A map from the entries in which it was written. -/
def ofEntries (entries : List (Value × Value)) : Value := .map (Assoc.ofEntries entries)

/-- The entries of a map, and none of anything else. -/
def entries : Value → List (Value × Value)
  | .map entries => entries
  | _ => []

/-- The value under a key of a map. -/
def find? (v key : Value) : Option Value := Assoc.find? key v.entries

/-- The value under a textual key of a map. -/
def lookup? (v : Value) (name : String) : Option Value := v.find? (.text name)

end Value

/-- The entries of a mapping, which callers pass as attributes. -/
abbrev Attributes := Assoc Value Value

end Rollout
