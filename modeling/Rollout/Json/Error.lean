/-
Why a text is not JSON, and where.

* `SyntaxError.reason` — the wording of each fault;
* `SyntaxError.message` — the fault with its line, column and position.
-/

namespace Rollout.Json

/-- A fault in a JSON text. -/
inductive Fault
  | expectingValue
  | expectingName
  | expectingColon
  | expectingComma
  | extraData
  | unterminatedString
  | badEscape
  | badUnicodeEscape
  | controlCharacter
  | byteOrderMark
deriving DecidableEq, Repr

def Fault.reason : Fault → String
  | expectingValue => "Expecting value"
  | expectingName => "Expecting property name enclosed in double quotes"
  | expectingColon => "Expecting ':' delimiter"
  | expectingComma => "Expecting ',' delimiter"
  | extraData => "Extra data"
  | unterminatedString => "Unterminated string starting at"
  | badEscape => "Invalid \\escape"
  | badUnicodeEscape => "Invalid \\uXXXX escape"
  | controlCharacter => "Invalid control character at"
  | byteOrderMark => "Unexpected UTF-8 BOM (decode using utf-8-sig)"

/-- A fault with its place: a line and a column, counted from one, and a position, counted from
zero. -/
structure SyntaxError where
  fault : Fault
  line : Nat
  column : Nat
  position : Nat
deriving DecidableEq, Repr

/-- The fault at a position of a text. -/
def SyntaxError.at (fault : Fault) (text : List Char) (position : Nat) : SyntaxError :=
  let before := text.take position
  { fault
    line := before.count '\n' + 1
    column := (before.reverse.takeWhile (· != '\n')).length + 1
    position }

def SyntaxError.message (e : SyntaxError) : String :=
  e.fault.reason ++ ": line " ++ toString e.line ++ " column " ++ toString e.column
    ++ " (char " ++ toString e.position ++ ")"

end Rollout.Json
