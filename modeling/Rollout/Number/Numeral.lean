/-
Numerals: the texts that denote a number.

The strict grammar is an optional sign, digits with an optional point, and an optional exponent.
Two looser readings strip surrounding blanks and allow an underscore between two digits; they
differ in which characters count as blanks and digits, so both are parameters.

* `Numeral.integer?` — strict whole numbers, as their digits;
* `Numeral.scientific?` — strict decimal numbers;
* `Numeral.lenientInteger?`, `Numeral.lenientFloat?` — the looser readings.
-/
import Rollout.Text.Blank
import Rollout.Text.Case
import Rollout.Number.Binary64

namespace Rollout.Numeral

open Rollout.Text

/-- The most digits that a text read as a whole number may have. -/
def maxDigits : Nat := 4300

/-- The number `± coefficient * 10 ^ exponent`. -/
structure Scientific where
  negative : Bool
  coefficient : Nat
  exponent : Int
deriving DecidableEq, Repr

/-- The float nearest to a decimal number. -/
def Scientific.toBinary64 (n : Scientific) : Binary64 :=
  .ofScaled n.negative n.coefficient n.exponent

/-- A text without its leading sign, and whether that was a minus. -/
def splitSign : List Char → Bool × List Char
  | '+' :: rest => (false, rest)
  | '-' :: rest => (true, rest)
  | rest => (false, rest)

/-- The digits that a text begins with, and what follows them. -/
def spanDigits (digit : Char → Option Nat) : List Char → List Nat × List Char
  | [] => ([], [])
  | c :: rest =>
    match digit c with
    | some d =>
      match spanDigits digit rest with
      | (digits, rest) => (d :: digits, rest)
    | none => ([], c :: rest)

/-- The sign and the digits of a strict whole number. -/
def integer? (digit : Char → Option Nat) (cs : List Char) : Option (Bool × List Nat) :=
  match splitSign cs with
  | (negative, rest) =>
    match spanDigits digit rest with
    | (d :: digits, []) => some (negative, d :: digits)
    | _ => none

/-- The exponent of a decimal number: nothing, or a whole number after an `e`. -/
def exponent? (digit : Char → Option Nat) : List Char → Option Int
  | [] => some 0
  | c :: rest =>
    if c = 'e' ∨ c = 'E' then
      (integer? digit rest).map fun (negative, digits) => Binary64.signed negative (ofDigits digits)
    else none

/-- The digits after a point, and what follows them. -/
def fraction (digit : Char → Option Nat) : List Char → List Nat × List Char
  | '.' :: rest => spanDigits digit rest
  | rest => ([], rest)

/-- A strict decimal number. -/
def scientific? (digit : Char → Option Nat) (cs : List Char) : Option Scientific :=
  match splitSign cs with
  | (negative, rest) =>
    match spanDigits digit rest with
    | (whole, rest) =>
      match fraction digit rest with
      | (part, rest) =>
        if whole.isEmpty && part.isEmpty then none
        else (exponent? digit rest).map fun e =>
          ⟨negative, ofDigits (whole ++ part), e - part.length⟩

/-- Removes underscores, each of which must stand between two digits; `after` says whether a digit
comes before. -/
def joinDigits? (digit : Char → Option Nat) (after : Bool) : List Char → Option (List Char)
  | [] => some []
  | c :: rest =>
    if c = '_' then
      if after && rest.head?.any (fun d => (digit d).isSome) then joinDigits? digit false rest
      else none
    else (joinDigits? digit (digit c).isSome rest).map (c :: ·)

/-- A text without surrounding blanks and without the underscores between digits. -/
def tidy? (blank : Char → Bool) (digit : Char → Option Nat) (cs : List Char) :
    Option (List Char) :=
  joinDigits? digit false (trimBy blank cs)

/-- The whole number of a sign and digits, if they are few enough. -/
def bounded? : Bool × List Nat → Option Int
  | (negative, digits) =>
    if digits.length ≤ maxDigits then some (Binary64.signed negative (ofDigits digits)) else none

/-- A whole number in a looser form. -/
def lenientInteger? (blank : Char → Bool) (digit : Char → Option Nat) (cs : List Char) :
    Option Int :=
  (tidy? blank digit cs).bind fun cs => (integer? digit cs).bind bounded?

/-- The words for the numbers that digits cannot write, in lower case. -/
def special? (cs : List Char) : Option Binary64 :=
  match splitSign cs with
  | (negative, word) =>
    if word = "inf".toList ∨ word = "infinity".toList then some (.infinity negative)
    else if word = "nan".toList then some .nan
    else none

/-- A decimal number in a looser form, or one of the words for infinities and `nan`. -/
def lenientFloat? (blank : Char → Bool) (digit : Char → Option Nat) (cs : List Char) :
    Option Binary64 :=
  (tidy? blank digit cs).bind fun cs =>
    match scientific? digit cs with
    | some n => some n.toBinary64
    | none => special? (cs.map Char.toLower)

/-- A text without a point and the zeros after it, of which there must be one. -/
def dropZeroFraction (cs : List Char) : List Char :=
  match cs.span (· != '.') with
  | (whole, '.' :: '0' :: zeros) => if zeros.all (· == '0') then whole else cs
  | _ => cs

/-- A whole number in a looser form that may end in a fraction of zeros. -/
def wholeNumber? (blank : Char → Bool) (digit : Char → Option Nat) (cs : List Char) :
    Option Int :=
  lenientInteger? (fun _ => false) digit (dropZeroFraction (trimBy blank cs))

end Rollout.Numeral
