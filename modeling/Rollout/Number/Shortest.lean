/-
The shortest decimal text of a float.

Of all decimal numbers that round to the float, the text is one with the fewest digits, and of
those the nearest.  Exponents from -4 to 15 are written positionally, with at least one digit on
each side of the point; the others after an `e`, with a sign and at least two digits.

* `Binary64.shortest` — the digits and their exponent;
* `Binary64.text` — the text.
-/
import Rollout.Number.Binary64

namespace Rollout.Binary64

open Rollout.Text

/-- A float `4 * mantissa` units above zero, where the unit is `up / down` in units of the decimal
grid, and the distances to the ends of the interval that rounds to it. -/
structure Interval where
  value : Nat
  below : Nat
  above : Nat
  closed : Bool
deriving Repr

/-- The interval of reals that round to `mantissa * 2 ^ exponent`, in quarters of `2 ^ exponent`.
Below a power of two the floats lie twice as close. -/
def interval (mantissa : Nat) (exponent : Int) : Interval :=
  { value := 4 * mantissa
    below := if mantissa = twoPow 52 ∧ leastExponent < exponent then 1 else 2
    above := 2
    closed := mantissa % 2 == 0 }

/-- The factor of a power of `base`, split into numerator and denominator. -/
def powRatio (base : Nat) (k : Int) : Nat × Nat :=
  if 0 ≤ k then (Nat.pow base k.toNat, 1) else (1, Nat.pow base (-k).toNat)

/-- The point of the grid of multiples of `10 ^ k` that rounds to the float and is nearest to it,
if any: one of the two neighbours of the value. -/
def gridPoint? (i : Interval) (exponent k : Int) : Option Nat :=
  let (twoUp, twoDown) := powRatio 2 (exponent - 2)
  let (tenUp, tenDown) := powRatio 10 k
  let unit := twoUp * tenDown
  let step := tenUp * twoDown
  let lower := i.value * unit / step
  let rest := i.value * unit % step
  let inside (distance bound : Nat) : Bool :=
    if i.closed then distance ≤ bound * unit else distance < bound * unit
  let lowerFits := inside rest i.below
  let upperFits := inside (step - rest) i.above
  -- Where both neighbours round to the float the nearer one is taken, or else the even one.
  if lowerFits && upperFits then
    some (if step < 2 * rest ∨ (step = 2 * rest ∧ lower % 2 = 1) then lower + 1 else lower)
  else if lowerFits then some lower
  else if upperFits then some (lower + 1)
  else none

/-- Whether `mantissa * 2 ^ exponent` is at least `10 ^ k`. -/
def reaches (mantissa : Nat) (exponent k : Int) : Bool :=
  let (twoUp, twoDown) := powRatio 2 exponent
  let (tenUp, tenDown) := powRatio 10 k
  decide (tenUp * twoDown ≤ mantissa * twoUp * tenDown)

/-- The greatest `k` with `10 ^ k` not above `mantissa * 2 ^ exponent`. -/
def floorLogTen (mantissa : Nat) (exponent : Int) : Int :=
  -- The decimal logarithm of two is 0.30103, and the guess is off by one at most.
  let guess := Int.fdiv (((mantissa.log2 : Int) + exponent) * 30103) 100000
  if reaches mantissa exponent (guess + 1) then guess + 1
  else if reaches mantissa exponent guess then guess
  else guess - 1

/-- The first grid, of those with `count` digits and more, that has a point for the float. -/
def shortestFrom (i : Interval) (exponent top : Int) : Nat → Nat → Nat × Int
  | 0, count => (((gridPoint? i exponent (top - count)).getD 0), top - count)
  | fuel + 1, count =>
    match gridPoint? i exponent (top - count) with
    | some digits => (digits, top - count)
    | none => shortestFrom i exponent top fuel (count + 1)

/-- The shortest decimal digits of `mantissa * 2 ^ exponent`, and the exponent of the last one. -/
def shortest (mantissa : Nat) (exponent : Int) : Nat × Int :=
  if mantissa = 0 then (0, 0)
  else shortestFrom (interval mantissa exponent) exponent (floorLogTen mantissa exponent) 17 0

/-- Digits without the zeros at their end; a lone zero stays. -/
def dropTrailingZeros (digits : List Char) : List Char :=
  match (digits.reverse.dropWhile (· == '0')).reverse with
  | [] => ['0']
  | kept => kept

/-- Digits with a point after the first `point` of them, padded with zeros on either side. -/
def positional (digits : List Char) (point : Int) : List Char :=
  if point ≤ 0 then '0' :: '.' :: List.replicate (-point).toNat '0' ++ digits
  else
    let whole := digits.take point.toNat
    let fraction := digits.drop point.toNat
    whole ++ List.replicate (point.toNat - whole.length) '0' ++
      '.' :: (if fraction.isEmpty then ['0'] else fraction)

/-- Digits with a point after the first and an exponent. -/
def exponential (digits : List Char) (exponent : Int) : List Char :=
  let size := natText exponent.natAbs
  let padded := if size.length < 2 then '0' :: size else size
  digits.take 1 ++ (if digits.length ≤ 1 then [] else '.' :: digits.drop 1) ++
    'e' :: (if exponent < 0 then '-' else '+') :: padded

/-- The text of `mantissa * 2 ^ exponent`. -/
def magnitudeText (mantissa : Nat) (exponent : Int) : List Char :=
  let (number, last) := shortest mantissa exponent
  let all := natText number
  let point := (all.length : Int) + last
  let digits := dropTrailingZeros all
  if number = 0 then ['0', '.', '0']
  else if -4 < point ∧ point ≤ 16 then positional digits point
  else exponential digits (point - 1)

/-- The text of a float. -/
def text : Binary64 → String
  | .nan => "nan"
  | .infinity negative => if negative then "-inf" else "inf"
  | .finite negative mantissa exponent =>
    .ofList ((if negative then ['-'] else []) ++ magnitudeText mantissa exponent)

end Rollout.Binary64
