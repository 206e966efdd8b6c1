/-
Values as they appear in messages.

Texts inside a container are quoted, texts on their own are not.  An integer of too many digits has
no form, nor has anything that holds one; its wording is spelled out here all the same.

* `Value.literal` — the quoted form;
* `Value.display` — the plain form;
* `Value.hasLiteral` — whether these forms can be asked for.
-/
import Rollout.Value
import Rollout.Number.Numeral
import Rollout.Number.Shortest
import Rollout.Text.Quoted

namespace Rollout.Value

open Rollout.Text

/-- Parts between an opening and a closing mark, separated by a comma and a space. -/
def enclose (opening closing : String) (parts : List String) : String :=
  opening ++ ", ".intercalate parts ++ closing

mutual

def literal : Value → String
  | .null => "None"
  | .bool b => if b then "True" else "False"
  | .int n => .ofList (intText n)
  | .float x => x.text
  | .decimal d => "Decimal('" ++ d.text ++ "')"
  | .text s => quoted s
  | .bytes octets => quotedBytes octets
  | .list items => enclose "[" "]" (literals items)
  | .tuple items =>
    match literals items with
    | [only] => "(" ++ only ++ ",)"
    | parts => enclose "(" ")" parts
  | .set items =>
    match literals items with
    | [] => "set()"
    | parts => enclose "\x7b" "\x7d" parts
  | .map entries => enclose "\x7b" "\x7d" (entryLiterals entries)
  | .object => "<object object>"

/-- The quoted forms of a list of values. -/
def literals : List Value → List String
  | [] => []
  | v :: rest => literal v :: literals rest

/-- The entries of a map, each as its key, a colon and its value. -/
def entryLiterals : List (Value × Value) → List String
  | [] => []
  | (k, v) :: rest => (literal k ++ ": " ++ literal v) :: entryLiterals rest

end

def display : Value → String
  | .text s => s
  | .decimal d => d.text
  | v => v.literal

mutual

/-- Whether the forms of a value can be asked for: no integer in it has too many digits. -/
def hasLiteral : Value → Bool
  | .int n => decide (digitCount n.natAbs ≤ Numeral.maxDigits)
  | .list items => haveLiterals items
  | .tuple items => haveLiterals items
  | .set items => haveLiterals items
  | .map entries => entriesHaveLiterals entries
  | _ => true

def haveLiterals : List Value → Bool
  | [] => true
  | v :: rest => hasLiteral v && haveLiterals rest

def entriesHaveLiterals : List (Value × Value) → Bool
  | [] => true
  | (k, v) :: rest => hasLiteral k && hasLiteral v && entriesHaveLiterals rest

end

/-- The quoted form of a value that has one. -/
def literal? (v : Value) : Option String := if v.hasLiteral then some v.literal else none

end Rollout.Value
