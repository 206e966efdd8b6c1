/-
Payloads as values of the type a caller asked for.

A truth value is lenient: any payload but `false` means that the flag is on.  The other types are
strict, except that numbers may come as numerals, as services write large ones.  An absent payload
asks for the caller's default.

* `FlagType.coerce` — the value, or none for the default;
* `coerceInteger` — numbers lose their fraction, nothing else.
-/
import Rollout.Payload

namespace Rollout

open Rollout.Text

/-- The type of value that a caller asks for. -/
inductive FlagType
  | boolean | string | integer | float | object
deriving DecidableEq, Repr

def FlagType.all : List FlagType := [boolean, string, integer, float, object]

def FlagType.name : FlagType → String
  | boolean => "boolean"
  | string => "string"
  | integer => "integer"
  | float => "float"
  | object => "object"

def FlagType.ofName? (name : String) : Option FlagType := FlagType.all.find? (·.name == name)

/-- A payload of a kind that the type does not take. -/
def wrongKind (expected : String) (p : Payload) : Failure :=
  .typeMismatch ("expected " ++ expected ++ " payload, got " ++ p.kindName) expected p.kindName
    none

def coerceBoolean : Payload → Bool
  | .bool b => b
  | _ => true

def coerceString : Payload → Except Failure (Option Value)
  | .text s => .ok (some (.text s))
  | .absent => .ok none
  | p => .error (wrongKind "string" p)

def Number.toFloat : Number → Except Failure Binary64
  | .float x => .ok x
  | .int n =>
    let x := Binary64.ofInt n
    if x.isFinite then .ok x
    else .error (.typeMismatch "payload is out of range for a float" "float" "number"
      (some .floatOverflow))
  | .decimal d =>
    match d.toBinary64? with
    | some x => .ok x
    | none => .error .signalingNan

/-- A numeral as a float. -/
def floatOfText (s : String) : Except Failure Binary64 :=
  match Numeral.scientific? digit? s.toList with
  | some n => .ok n.toBinary64
  | none => .error (.typeMismatch ("payload " ++ quoted s ++ " is not a decimal number")
      "float" "string" none)

def coerceFloat : Payload → Except Failure (Option Value)
  | .number n => n.toFloat.map fun x => some (.float x)
  | .text s => (floatOfText s).map fun x => some (.float x)
  | .absent => .ok none
  | p => .error (wrongKind "float" p)

/-- The integer part of a number. -/
def Number.toInteger (n : Number) : Except Failure Int :=
  let part := match n with
    | .int n => some n
    | .float x => x.truncate?
    | .decimal d => d.truncate?
  match part with
  | some n => .ok n
  | none => .error (.typeMismatch ("payload " ++ n.value.literal ++ " has no integer value")
      "integer" "number" none)

/-- A numeral as an integer. -/
def integerOfText (s : String) : Except Failure Int :=
  match Numeral.integer? digit? s.toList with
  | some (negative, digits) =>
    if digits.length ≤ Numeral.maxDigits then .ok (Binary64.signed negative (ofDigits digits))
    else .error (.typeMismatch "payload is too long for an integer" "integer" "string"
      (some (.numeralTooLong digits.length)))
  | none => .error (.typeMismatch ("payload " ++ quoted s ++ " is not a base-10 integer")
      "integer" "string" none)

def coerceInteger : Payload → Except Failure (Option Value)
  | .number n => n.toInteger.map fun n => some (.int n)
  | .text s => (integerOfText s).map fun n => some (.int n)
  | .absent => .ok none
  | p => .error (wrongKind "integer" p)

/-- A payload as it is. -/
def coerceObject : Payload → Option Value
  | .absent => none
  | p => some p.value

/-- A payload as a value of a type; none for the caller's default. -/
def FlagType.coerce : FlagType → Payload → Except Failure (Option Value)
  | boolean, p => .ok (some (.bool (coerceBoolean p)))
  | string, p => coerceString p
  | integer, p => coerceInteger p
  | float, p => coerceFloat p
  | object, p => .ok (coerceObject p)

end Rollout
