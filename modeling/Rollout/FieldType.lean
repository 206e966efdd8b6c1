/-
What the fields of a record hold, and how a value is fitted to them.

Fitting is lenient where nothing is lost: UTF-8 bytes become text, a whole float becomes an
integer, a numeral becomes its number.  Every part that does not fit is reported by its path.

* `FieldType.convert` — a value fitted to a type;
* `convertText`, `convertInteger`, `convertNumber`, `convertTruth` — the plain types.
-/
import Rollout.Failure
import Rollout.Text.Utf8

namespace Rollout

open Rollout.Text

/-- The type of a field. -/
inductive FieldType
  | text
  | integer
  | number
  | truth
  | positiveInteger
  | positiveNumber
  | anything
  | listOf (item : FieldType)
  | mapOf (item : FieldType)
deriving DecidableEq, Repr

/-- The characters of a text, or of bytes in UTF-8. -/
def characters? : Value → Option (List Char)
  | .text s => some s.toList
  | .bytes octets => (decodeUtf8 octets).toOption
  | _ => none

/-- A text, from a text or from bytes in UTF-8. -/
def convertText : Value → Option Value
  | .text s => some (.text s)
  | .bytes octets => ((decodeUtf8 octets).toOption).map fun cs => .text (.ofList cs)
  | _ => none

/-- Two to the 63rd, the bound of 64-bit integers. -/
def wordBound : Int := 9223372036854775808

/-- Whether a float lies between the bounds of 64-bit integers. -/
def fitsWord (n : Int) : Bool := decide (-wordBound < n) && decide (n < wordBound)

/-- An integer, from a number without fraction or a numeral. -/
def convertInteger : Value → Option Int
  | .int n => some n
  | .bool b => some (if b then 1 else 0)
  | .float x => if x.isWhole then x.truncate?.filter fitsWord else none
  | .decimal d => if d.isWhole then d.truncate? else none
  | v => (characters? v).bind (Numeral.wholeNumber? isWhite asciiDigit?)

/-- The float nearest to an integer, if it is in range. -/
def floatOfInt? (n : Int) : Option Binary64 :=
  let x := Binary64.ofInt n
  if x.isFinite then some x else none

/-- A float, from a number or a numeral. -/
def convertNumber : Value → Option Binary64
  | .float x => some x
  | .int n => floatOfInt? n
  | .bool b => some (.ofInt (if b then 1 else 0))
  | .decimal d => d.toBinary64?
  | v => (characters? v).bind (Numeral.lenientFloat? isWhite asciiDigit?)

/-- The words for a truth value, in lower case. -/
def truthWord? (word : String) : Option Bool :=
  if ["0", "off", "f", "false", "n", "no"].contains word then some false
  else if ["1", "on", "t", "true", "y", "yes"].contains word then some true
  else none

/-- A truth value, from zero or one or a word. -/
def convertTruth : Value → Option Bool
  | .bool b => some b
  | .int n => if n = 0 then some false else if n = 1 then some true else none
  | .float x =>
    if x.isZero then some false else if x = .ofInt 1 then some true else none
  | .decimal d =>
    match d.toBinary64? with
    | some x => if x.isZero then some false else if x = .ofInt 1 then some true else none
    | none => none
  | v => (characters? v).bind fun cs => truthWord? (.ofList (cs.map Char.toLower))

/-- The items of a value that is read as a list. -/
def listItems? : Value → Option (List Value)
  | .list items => some items
  | .tuple items => some items
  | .set items => some items
  | _ => none

/-- The plain form of a value, or what it is when it has none. -/
def Value.describe (v : Value) : String :=
  if v.hasLiteral then v.display else "<unprintable " ++ v.kindName ++ " object>"

/-- A map key as a step of a path.  Integers of 64 bits stay numbers. -/
def Step.ofKey : Value → Step
  | .text s => .name s
  | .bool b => .index (if b then 1 else 0)
  | .int n =>
    if -wordBound ≤ n ∧ n < wordBound then .index n else .name (Value.int n).describe
  | key => .name key.describe

/-- All results, or the paths of all that did not fit. -/
def gather {α : Type} : List (Except (List Path) α) → Except (List Path) (List α)
  | [] => .ok []
  | .ok a :: rest =>
    match gather rest with
    | .ok items => .ok (a :: items)
    | .error paths => .error paths
  | .error paths :: rest =>
    match gather rest with
    | .ok _ => .error paths
    | .error more => .error (paths ++ more)

/-- A result that fits at this very place, or not. -/
def fitHere {α : Type} : Option α → Except (List Path) α
  | some a => .ok a
  | none => .error [[]]

/-- The paths of a part that does not fit. -/
def faults {α : Type} : Except (List Path) α → List Path
  | .ok _ => []
  | .error paths => paths

/-- A result one step further down. -/
def below {α : Type} (step : Step) : Except (List Path) α → Except (List Path) α
  | .ok a => .ok a
  | .error paths => .error (paths.map (step :: ·))

/-- The items of a list, each fitted, with their positions counted from `position`. -/
def convertItems (convert : Value → Except (List Path) Value) (position : Nat) :
    List Value → List (Except (List Path) Value)
  | [] => []
  | v :: rest => below (.index position) (convert v) :: convertItems convert (position + 1) rest

/-- An entry of a map, with a text as its key. -/
def convertEntry (convert : Value → Except (List Path) Value) (entry : Value × Value) :
    Except (List Path) (Value × Value) :=
  let step := Step.ofKey entry.1
  match convertText entry.1, convert entry.2 with
  | some key, .ok value => .ok (key, value)
  | some _, .error paths => .error (paths.map (step :: ·))
  | none, .ok _ => .error [[step, .name "[key]"]]
  | none, .error paths => .error ([step, .name "[key]"] :: paths.map (step :: ·))

/-- A value fitted to a type, or the paths of the parts that do not fit. -/
def FieldType.convert : FieldType → Value → Except (List Path) Value
  | .text, v => fitHere (convertText v)
  | .integer, v => fitHere ((convertInteger v).map .int)
  | .number, v => fitHere ((convertNumber v).map .float)
  | .truth, v => fitHere ((convertTruth v).map .bool)
  | .positiveInteger, v => fitHere (((convertInteger v).filter (0 < ·)).map .int)
  | .positiveNumber, v => fitHere (((convertNumber v).filter (·.isPositive)).map .float)
  | .anything, v => .ok v
  | .listOf item, v =>
    match listItems? v with
    | none => .error [[]]
    | some items => (gather (convertItems item.convert 0 items)).map .list
  | .mapOf item, v =>
    match v with
    | .map entries => (gather (entries.map (convertEntry item.convert))).map .ofEntries
    | _ => .error [[]]

end Rollout
