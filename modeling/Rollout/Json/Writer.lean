/-
Writing values as JSON.

A layout says how tokens are separated, whether characters beyond ASCII are escaped, and what is
written for a value that JSON has no form for.  Tuples are written as lists, and keys that are not
texts as the text of their value.

* `Json.write` — a value in a layout, or the part of it that cannot be written;
* `Json.sortNames` — a value with the names of every map in order of code points.
-/
import Rollout.Failure

namespace Rollout.Json

open Rollout.Text

/-- How JSON is laid out. -/
structure Layout where
  /-- Whether characters beyond ASCII are written as escapes. -/
  escapesAll : Bool
  /-- What separates two items on one line. -/
  comma : List Char
  /-- What separates a name from its value. -/
  colon : List Char
  /-- How far each level is indented; none for a single line. -/
  indent : Option Nat
  /-- Whether a value without a form of its own is written in its quoted form, and not refused. -/
  quotesOthers : Bool

/-- One line, with a space after each comma and colon. -/
def Layout.spaced : Layout := ⟨true, [',', ' '], [':', ' '], none, false⟩

/-- One line without spaces. -/
def Layout.compact : Layout := ⟨true, [','], [':'], none, false⟩

/-- Indented by two spaces, with characters beyond ASCII as they are. -/
def Layout.indented : Layout := ⟨false, [','], [':', ' '], some 2, false⟩

/-- One line on which values that JSON has no form for appear in their quoted form. -/
def Layout.log : Layout := { Layout.spaced with quotesOthers := true }

/-- A unit of 16 bits as an escape. -/
def unitEscape (n : Nat) : List Char := '\\' :: 'u' :: hexText 4 n

/-- A code point as one escape, or as two beyond the first plane. -/
def charEscape (n : Nat) : List Char :=
  if n < 0x10000 then unitEscape n
  else unitEscape (0xD800 + (n - 0x10000) / 1024) ++ unitEscape (0xDC00 + (n - 0x10000) % 1024)

/-- One character inside quotes. -/
def writeChar (escapesAll : Bool) (c : Char) : List Char :=
  if c = '"' then ['\\', '"']
  else if c = '\\' then ['\\', '\\']
  else if c = '\n' then ['\\', 'n']
  else if c = '\r' then ['\\', 'r']
  else if c = '\t' then ['\\', 't']
  else if c = '\x0c' then ['\\', 'f']
  else if c = '\x08' then ['\\', 'b']
  else if c.toNat < 32 ∨ (escapesAll ∧ 126 < c.toNat) then charEscape c.toNat
  else [c]

/-- A text in quotes. -/
def writeText (escapesAll : Bool) (s : String) : List Char :=
  '"' :: s.toList.flatMap (writeChar escapesAll) ++ ['"']

/-- An integer, if it is short enough to be read again. -/
def writeInt (n : Int) : Except Failure (List Char) :=
  if digitCount n.natAbs ≤ Numeral.maxDigits then .ok (intText n) else .error .integerTooLong

/-- A float; the words are those that reading accepts. -/
def writeFloat : Binary64 → List Char
  | .nan => "NaN".toList
  | .infinity negative => if negative then "-Infinity".toList else "Infinity".toList
  | x => x.text.toList

/-- The name that a key is written as. -/
def keyName : Value → Except Failure String
  | .text s => .ok s
  | .null => .ok "null"
  | .bool b => .ok (if b then "true" else "false")
  | .int n => (writeInt n).map .ofList
  | .float x => .ok (.ofList (writeFloat x))
  | key => .error (.notJsonKey key)

/-- A value without a form of its own. -/
def writeOther (layout : Layout) (v : Value) : Except Failure (List Char) :=
  if layout.quotesOthers then
    match v.literal? with
    | some s => .ok (writeText layout.escapesAll s)
    | none => .error .integerTooLong
  else .error (.notJson v)

/-- A line break with the indentation of a level; nothing on a single line. -/
def lineBreak (layout : Layout) (level : Nat) : List Char :=
  match layout.indent with
  | some width => '\n' :: List.replicate (level * width) ' '
  | none => []

/-- Parts between brackets; an empty container stays on its line. -/
def bracket (layout : Layout) (level : Nat) (opening closing : Char) (parts : List (List Char)) :
    List Char :=
  if parts.isEmpty then [opening, closing]
  else
    let separator := layout.comma ++ lineBreak layout (level + 1)
    opening :: lineBreak layout (level + 1) ++ separator.intercalate parts
      ++ lineBreak layout level ++ [closing]

mutual

/-- A value at a level of indentation. -/
def writeAt (layout : Layout) (level : Nat) : Value → Except Failure (List Char)
  | .null => .ok "null".toList
  | .bool b => .ok (if b then "true".toList else "false".toList)
  | .int n => writeInt n
  | .float x => .ok (writeFloat x)
  | .text s => .ok (writeText layout.escapesAll s)
  | .list items => (writeItems layout (level + 1) items).map (bracket layout level '[' ']')
  | .tuple items => (writeItems layout (level + 1) items).map (bracket layout level '[' ']')
  | .map entries =>
    (writeMembers layout (level + 1) entries).map (bracket layout level '\x7b' '\x7d')
  | .decimal d => writeOther layout (.decimal d)
  | .bytes octets => writeOther layout (.bytes octets)
  | .set items => writeOther layout (.set items)
  | .object => writeOther layout .object

def writeItems (layout : Layout) (level : Nat) : List Value → Except Failure (List (List Char))
  | [] => .ok []
  | v :: rest =>
    match writeAt layout level v with
    | .error failure => .error failure
    | .ok part => (writeItems layout level rest).map (part :: ·)

def writeMembers (layout : Layout) (level : Nat) :
    List (Value × Value) → Except Failure (List (List Char))
  | [] => .ok []
  | (key, v) :: rest =>
    match keyName key with
    | .error failure => .error failure
    | .ok name =>
      match writeAt layout level v with
      | .error failure => .error failure
      | .ok part =>
        (writeMembers layout level rest).map
          ((writeText layout.escapesAll name ++ layout.colon ++ part) :: ·)

end

/-- A value as characters. -/
def writeChars (layout : Layout) (v : Value) : Except Failure (List Char) := writeAt layout 0 v

/-- A value as a text. -/
def write (layout : Layout) (v : Value) : Except Failure String :=
  (writeChars layout v).map .ofList

/-- The text of a key that is one. -/
def nameOf : Value → String
  | .text s => s
  | _ => ""

/-- Entries in the order of their names. -/
def sortEntries (entries : List (Value × Value)) : List (Value × Value) :=
  entries.mergeSort fun a b => decide (nameOf a.1 ≤ nameOf b.1)

mutual

/-- A value with the entries of every map in the order of their names. -/
def sortNames : Value → Value
  | .list items => .list (sortItems items)
  | .map entries => .map (sortEntries (sortMembers entries))
  | v => v

/-- The items of a list, each with its names sorted. -/
def sortItems : List Value → List Value
  | [] => []
  | v :: rest => sortNames v :: sortItems rest

/-- The values of a map, each with its names sorted. -/
def sortMembers : List (Value × Value) → List (Value × Value)
  | [] => []
  | (key, v) :: rest => (key, sortNames v) :: sortMembers rest

end

end Rollout.Json
