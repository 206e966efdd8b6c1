/-
The payloads of variants.

A payload is whatever the service's decoder produced.  It is classified once, and values that no
decoder produces are refused.

* `Payload.ofValue` — the classification;
* `Payload.value` — the value that was classified.
-/
import Rollout.Failure

namespace Rollout

/-- A number in a payload. -/
inductive Number
  | int (n : Int)
  | float (x : Binary64)
  | decimal (d : Decimal)
deriving DecidableEq, Repr

/-- A payload by its kind.  A sequence keeps the list or tuple that it came as. -/
inductive Payload
  | absent
  | bool (b : Bool)
  | number (n : Number)
  | text (s : String)
  | list (items : List Value)
  | tuple (items : List Value)
  | mapping (entries : Attributes)
deriving Repr

/-- A number as a value. -/
def Number.value : Number → Value
  | .int n => .int n
  | .float x => .float x
  | .decimal d => .decimal d

namespace Payload

/-- The payload that a value is. -/
def ofValue : Value → Except Failure Payload
  | .null => .ok .absent
  | .bool b => .ok (.bool b)
  | .int n => .ok (.number (.int n))
  | .float x => .ok (.number (.float x))
  | .decimal d => .ok (.number (.decimal d))
  | .text s => .ok (.text s)
  | .map entries => .ok (.mapping entries)
  | .list items => .ok (.list items)
  | .tuple items => .ok (.tuple items)
  | v => .error (.report .typeMismatch ("unsupported payload type " ++ v.kindName))

/-- The value that a payload was classified from. -/
def value : Payload → Value
  | absent => .null
  | bool b => .bool b
  | number n => n.value
  | text s => .text s
  | list items => .list items
  | tuple items => .tuple items
  | mapping entries => .map entries

def kindName : Payload → String
  | absent => "absent"
  | bool _ => "bool"
  | number _ => "number"
  | text _ => "string"
  | list _ | tuple _ => "sequence"
  | mapping _ => "mapping"

def isAbsent : Payload → Bool
  | absent => true
  | _ => false

theorem value_of_ofValue {v : Value} {p : Payload} (h : ofValue v = .ok p) : p.value = v := by
  cases v <;> simp_all [ofValue] <;> subst h <;> rfl

end Payload

end Rollout
