/-
The spellings under which callers pass an attribute.

All are derived from the underscore form of a name: as it is, in lower, upper and capitalized case;
with an underscore in it also in camel, kebab and pascal case; and with a final `_id` or `_ids` in
the three forms of that suffix.

* `spellings` — the list, duplicates kept.
-/
import Rollout.Text.Case

namespace Rollout

open Rollout.Text

/-- The name from which aliases of a camel-case name are derived. -/
def underscoreForm (name : String) : String :=
  if name = "revenueType" then "revenue_type" else name

/-- Rewrites each character that follows an underscore, together with the underscore.  Breaks are
taken from the left and do not overlap; a line feed makes none. -/
def mapBreaks (f : Char → List Char) : List Char → List Char
  | '_' :: c :: rest =>
    if c = '\n' then '_' :: mapBreaks f (c :: rest) else f c ++ mapBreaks f rest
  | c :: rest => c :: mapBreaks f rest
  | [] => []

def camelCase (cs : List Char) : List Char := mapBreaks upperChar cs

def kebabCase (cs : List Char) : List Char := mapBreaks (fun c => '-' :: lowerChars [c]) cs

/-- A text without its ending, if it has it. -/
def dropSuffix? (ending cs : List Char) : Option (List Char) :=
  if ending.isSuffixOf cs then some (cs.take (cs.length - ending.length)) else none

/-- The three forms of a name that ends in an identifier suffix: in capitals, after a hyphen, and
joined. -/
def suffixForms (stem capitals word : List Char) : List (List Char) :=
  [stem ++ capitals, lowerChars (stem ++ '-' :: word), lowerChars (stem ++ word)]

/-- The spellings of a name given as characters. -/
def spellingsOf (cs : List Char) : List (List Char) :=
  [cs, lowerChars cs, upperChars cs, capitalizeChars cs]
    ++ (if cs.contains '_' then [camelCase cs, kebabCase cs, capitalizeChars (camelCase cs)]
      else [])
    ++ match dropSuffix? ['_', 'i', 'd', 's'] cs with
      | some stem => suffixForms stem ['I', 'D', 's'] ['i', 'd', 's']
      | none =>
        match dropSuffix? ['_', 'i', 'd'] cs with
        | some stem => suffixForms stem ['I', 'D'] ['i', 'd']
        | none => []

/-- Every spelling of a name. -/
def spellings (name : String) : List String :=
  (spellingsOf (underscoreForm name).toList).map .ofList

end Rollout
