/-
Decimal numbers of any precision.

A finite decimal is `± coefficient * 10 ^ exponent`; equal values with different exponents are
written differently, so the exponent is kept.  The text is positional when the exponent is not
positive and fewer than six zeros follow the point, and has an `E` otherwise.

* `Decimal.text`, `Decimal.ofText?` — the text and its reading;
* `Decimal.truncate?` — the integer part;
* `Decimal.toBinary64?` — the nearest float, for all but a signaling `NaN`.
-/
import Rollout.Number.Numeral

namespace Rollout

open Rollout.Text

/-- A decimal number.  A `NaN` carries a diagnostic number, zero for none. -/
inductive Decimal
  | finite (negative : Bool) (coefficient : Nat) (exponent : Int)
  | infinity (negative : Bool)
  | nan (negative signaling : Bool) (diagnostic : Nat)
deriving DecidableEq, Repr, Inhabited

namespace Decimal

/-- Whether a decimal is neither an infinity nor a `NaN`. -/
def isFinite : Decimal → Bool
  | .finite .. => true
  | _ => false

def isZero : Decimal → Bool
  | .finite _ coefficient _ => coefficient == 0
  | _ => false

/-- The text of a sign. -/
def signText (negative : Bool) : List Char := if negative then ['-'] else []

/-- Digits with a point after the first `point` of them. -/
def withPoint (digits : List Char) (point : Int) : List Char :=
  if point ≤ 0 then '0' :: '.' :: List.replicate (-point).toNat '0' ++ digits
  else
    let whole := digits.take point.toNat
    let fraction := digits.drop point.toNat
    if fraction.isEmpty then whole ++ List.replicate (point.toNat - whole.length) '0'
    else whole ++ '.' :: fraction

/-- The text of `coefficient * 10 ^ exponent`. -/
def magnitudeText (coefficient : Nat) (exponent : Int) : List Char :=
  let digits := natText coefficient
  -- So many digits stand before the point.
  let left := exponent + digits.length
  if exponent ≤ 0 ∧ -6 < left then withPoint digits left
  else withPoint digits 1 ++
    (if left = 1 then []
      else 'E' :: (if left < 1 then '-' else '+') :: natText (left - 1).natAbs)

/-- The text of a decimal. -/
def text : Decimal → String
  | .finite negative coefficient exponent =>
    .ofList (signText negative ++ magnitudeText coefficient exponent)
  | .infinity negative => .ofList (signText negative ++ "Infinity".toList)
  | .nan negative signaling diagnostic =>
    .ofList (signText negative ++ (if signaling then ['s'] else []) ++ "NaN".toList ++
      (if diagnostic = 0 then [] else natText diagnostic))

/-- The diagnostic number after the word for a `NaN`. -/
def diagnostic? (digits : List Char) : Option Nat :=
  match Numeral.spanDigits digit? digits with
  | (digits, []) => some (ofDigits digits)
  | _ => none

/-- The decimal that a word denotes, in lower case and without sign. -/
def special? (negative : Bool) (word : List Char) : Option Decimal :=
  if word = "inf".toList ∨ word = "infinity".toList then some (.infinity negative)
  else if word.take 3 = "nan".toList then
    (diagnostic? (word.drop 3)).map (.nan negative false)
  else if word.take 4 = "snan".toList then
    (diagnostic? (word.drop 4)).map (.nan negative true)
  else none

/-- The decimal that a text denotes. -/
def ofText? (s : String) : Option Decimal :=
  match Numeral.scientific? digit? s.toList with
  | some n => some (.finite n.negative n.coefficient n.exponent)
  | none =>
    match Numeral.splitSign s.toList with
    | (negative, word) => special? negative (word.map Char.toLower)

/-- The integer part of a finite decimal. -/
def truncate? : Decimal → Option Int
  | .finite negative coefficient exponent =>
    some (Binary64.signed negative
      (if 0 ≤ exponent then coefficient * tenPow exponent.toNat
        else coefficient / tenPow (-exponent).toNat))
  | _ => none

/-- Whether a decimal is finite and has no fraction. -/
def isWhole : Decimal → Bool
  | .finite _ coefficient exponent =>
    decide (0 ≤ exponent) || coefficient % tenPow (-exponent).toNat == 0
  | _ => false

/-- The exact value of a finite decimal. -/
def toRat? : Decimal → Option Rat
  | .finite negative coefficient exponent =>
    some (if 0 ≤ exponent then
        (Binary64.signed negative (coefficient * tenPow exponent.toNat) : Rat)
      else mkRat (Binary64.signed negative coefficient) (tenPow (-exponent).toNat))
  | _ => none

/-- The float nearest to a decimal; a signaling `NaN` has none. -/
def toBinary64? : Decimal → Option Binary64
  | .finite negative coefficient exponent => some (.ofScaled negative coefficient exponent)
  | .infinity negative => some (.infinity negative)
  | .nan _ signaling _ => if signaling then none else some .nan

end Decimal

end Rollout
