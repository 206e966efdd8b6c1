/-
Full case mapping of text.

A character may map to several (`ß` to `SS`), and a capital sigma at the end of a word is written
`ς`.  ASCII letters are mapped by arithmetic, everything else by table.

* `lower`, `upper` — the mappings of a whole text;
* `capitalize` — the first character in upper case and the rest as it is.
-/
import Rollout.Text.Ranges
import Rollout.Text.CaseTable

namespace Rollout.Text

/-- The code point that a run maps `c` to, when the run covers `c`. -/
def CaseRun.map? (run : CaseRun) (c : Nat) : Option Nat :=
  if run.first ≤ c ∧ c ≤ run.last ∧ (c - run.first) % run.step = 0 then
    some ((c : Int) + run.shift).toNat
  else none

/-- The character that a table of runs maps `c` to; `c` itself outside the runs. -/
def mapByRuns (runs : List CaseRun) (c : Char) : Char :=
  match runs.findSome? (·.map? c.toNat) with
  | some code => Char.ofNat code
  | none => c

/-- The lower-case form of one character, a sigma not at the end of a word. -/
def lowerChar (c : Char) : List Char :=
  if c.toNat < 128 then [c.toLower]
  else if c = 'İ' then ['i', '\u0307']
  else [mapByRuns lowerRuns c]

/-- The upper-case form of one character. -/
def upperChar (c : Char) : List Char :=
  if c.toNat < 128 then [c.toUpper]
  else match upperExpansions.lookup c.toNat with
    | some codes => codes.map Char.ofNat
    | none => [mapByRuns upperRuns c]

/-- Whether a character stands between letters without separating them. -/
def isIgnorable (c : Char) : Bool := inRanges ignorableRanges c.toNat

/-- Whether a character is a letter with a case. -/
def isCased (c : Char) : Bool := inRanges casedRanges c.toNat

/-- Whether a sigma between `before` (nearest character first) and `after` ends a word. -/
def endsWord (before after : List Char) : Bool :=
  (before.dropWhile isIgnorable).head?.any isCased
    && !(after.dropWhile isIgnorable).head?.any isCased

/-- The lower-case form of a text that follows `before` (nearest character first). -/
def lowerAfter (before : List Char) : List Char → List Char
  | [] => []
  | c :: rest =>
    (if c = 'Σ' then [if endsWord before rest then 'ς' else 'σ'] else lowerChar c)
      ++ lowerAfter (c :: before) rest

/-- The lower-case form of a list of characters. -/
def lowerChars (cs : List Char) : List Char := lowerAfter [] cs

/-- The upper-case form of a list of characters. -/
def upperChars (cs : List Char) : List Char := cs.flatMap upperChar

/-- The first character in upper case, the rest unchanged. -/
def capitalizeChars : List Char → List Char
  | [] => []
  | c :: rest => upperChar c ++ rest

def lower (s : String) : String := .ofList (lowerChars s.toList)

def upper (s : String) : String := .ofList (upperChars s.toList)

/-- The text with its first character in upper case. -/
def capitalize (s : String) : String := .ofList (capitalizeChars s.toList)

end Rollout.Text
