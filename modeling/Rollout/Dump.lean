/-
Values reduced to what JSON can hold.

A decimal becomes its text, bytes in UTF-8 become text, tuples and sets become lists, and a float
that is no number becomes null.  Keys become texts; where two keys become the same text, the first
place and the last value stay.  A value is reduced to a bounded depth: every value inside another
one is a level further down, and a value with too many levels cannot be reduced.

* `Value.dump` — a value reduced;
* `FieldType.dump` — a value of a field reduced, whose own lists and maps are no levels;
* `Record.dump`, `Variant.dump` — records reduced to maps.
-/
import Rollout.Record
import Rollout.Variant

namespace Rollout

open Rollout.Text

/-- Bytes as the text that they are in UTF-8. -/
def textOfBytes (octets : List UInt8) : Except Failure String :=
  match decodeUtf8 octets with
  | .ok cs => .ok (.ofList cs)
  | .error position => .error (.malformedUtf8 (octets.getD position 0) position)

mutual

/-- The text that a key becomes. -/
def Value.dumpKey : Value → Except Failure String
  | .text s => .ok s
  | .null => .ok "None"
  | .bool b => .ok (if b then "true" else "false")
  | .int n =>
    if digitCount n.natAbs ≤ Numeral.maxDigits then .ok (.ofList (intText n))
    else .error .integerTooLong
  | .float x => .ok x.text
  | .decimal d => .ok d.text
  | .bytes octets => textOfBytes octets
  | .tuple items => (dumpKeys items).map (",".intercalate ·)
  | _ => .error .undumpable

/-- The texts that a list of keys becomes. -/
def dumpKeys : List Value → Except Failure (List String)
  | [] => .ok []
  | v :: rest =>
    match v.dumpKey with
    | .error failure => .error failure
    | .ok s => (dumpKeys rest).map (s :: ·)

end

mutual

/-- A value reduced to what JSON can hold, with room for as many levels. -/
def Value.dumpWithin : Nat → Value → Except Failure Value
  | 0, _ => .error .tooDeep
  | _ + 1, .null => .ok .null
  | _ + 1, .bool b => .ok (.bool b)
  | _ + 1, .int n => .ok (.int n)
  | _ + 1, .float x => .ok (if x.isFinite then .float x else .null)
  | _ + 1, .decimal d => .ok (.text d.text)
  | _ + 1, .text s => .ok (.text s)
  | _ + 1, .bytes octets => (textOfBytes octets).map .text
  | room + 1, .list items => (dumpItems room items).map .list
  | room + 1, .tuple items => (dumpItems room items).map .list
  | room + 1, .set items => (dumpItems room items).map .list
  | room + 1, .map entries => (dumpEntries room entries).map .ofEntries
  | _ + 1, .object => .error .undumpable

/-- The items of a list, reduced. -/
def dumpItems (room : Nat) : List Value → Except Failure (List Value)
  | [] => .ok []
  | v :: rest =>
    match v.dumpWithin room with
    | .error failure => .error failure
    | .ok v => (dumpItems room rest).map (v :: ·)

/-- The entries of a map, reduced, with texts as keys. -/
def dumpEntries (room : Nat) : List (Value × Value) → Except Failure (List (Value × Value))
  | [] => .ok []
  | (key, v) :: rest =>
    match key.dumpKey with
    | .error failure => .error failure
    | .ok key =>
      match v.dumpWithin room with
      | .error failure => .error failure
      | .ok v => (dumpEntries room rest).map ((.text key, v) :: ·)

end

/-- The number of levels that a value may have. -/
def Value.maxLevels : Nat := 254

/-- A value reduced to what JSON can hold. -/
def Value.dump (v : Value) : Except Failure Value := v.dumpWithin Value.maxLevels

/-- The items of a list, each reduced in the same way. -/
def dumpEach (dump : Value → Except Failure Value) : List Value → Except Failure (List Value)
  | [] => .ok []
  | v :: rest =>
    match dump v with
    | .error failure => .error failure
    | .ok v => (dumpEach dump rest).map (v :: ·)

/-- The entries of a map, each value reduced in the same way, with texts as keys. -/
def dumpEachEntry (dump : Value → Except Failure Value) :
    List (Value × Value) → Except Failure (List (Value × Value))
  | [] => .ok []
  | (key, v) :: rest =>
    match key.dumpKey with
    | .error failure => .error failure
    | .ok key =>
      match dump v with
      | .error failure => .error failure
      | .ok v => (dumpEachEntry dump rest).map ((.text key, v) :: ·)

/-- A value of a type, reduced.  The lists and maps that the type names are no levels; a value that
is not of its type is reduced like any other. -/
def FieldType.dump : FieldType → Value → Except Failure Value
  | .listOf item, .list items => (dumpEach item.dump items).map .list
  | .mapOf item, .map entries => (dumpEachEntry item.dump entries).map .ofEntries
  | _, v => v.dump

/-- Named values of their types, reduced; the first that cannot be is a failure. -/
def dumpFields : List (String × FieldType × Value) → Except Failure (List (Value × Value))
  | [] => .ok []
  | (name, type, v) :: rest =>
    match type.dump v with
    | .error failure => .error failure
    | .ok v => (dumpFields rest).map ((.text name, v) :: ·)

/-- The fields of a record that are set, reduced, under the names they are sent under. -/
def Record.dump {shape : Shape} (r : Record shape) : Except Failure Value :=
  let given := shape.keys.filter fun key => !(r.field key).isNull
  (dumpFields (given.map fun key => (key.wireName, shape.fieldType key, r.field key))).map .map

/-- A variant as a map, reduced.  Every part is there, absent ones as null. -/
def Variant.dump (v : Variant) : Except Failure Value :=
  (dumpFields [
    ("key", .text, .text v.key),
    ("value", .text, match v.value with | some s => .text s | none => .null),
    ("payload", .anything, v.payload),
    ("metadata", .mapOf .anything, .map v.metadata)]).map .map

/-- Variants as a map from their flags, reduced; the first that cannot be is a failure. -/
def Variants.dump : Variants → Except Failure (List (Value × Value))
  | [] => .ok []
  | (flag, variant) :: rest =>
    match variant.dump with
    | .error failure => .error failure
    | .ok v => (Variants.dump rest).map ((.text flag, v) :: ·)

end Rollout
