/-
Floating-point numbers of 64 bits as exact data.

A finite float is a sign, a mantissa below `2 ^ 53` and an exponent of at least `-1074`; its value
is `± mantissa * 2 ^ exponent`.  Every conversion below goes through exact integers, so nothing is
lost but what rounding must lose.

* `Binary64.ofRatio` — the float nearest to a quotient, a tie going to the even mantissa;
* `Binary64.ofScaled` — the float nearest to a decimal number;
* `Binary64.truncate?` — the integer part of a finite float.
-/
import Rollout.Number.Power
import Rollout.Text.Digit

namespace Rollout

/-- A float of 64 bits. -/
inductive Binary64
  | nan
  | infinity (negative : Bool)
  | finite (negative : Bool) (mantissa : Nat) (exponent : Int)
deriving DecidableEq, Repr, Inhabited

namespace Binary64

/-- The exponent of the smallest float. -/
def leastExponent : Int := -1074

/-- The exponent of the largest floats. -/
def greatestExponent : Int := 971

/-- Zero, of either sign. -/
def zero (negative : Bool) : Binary64 := .finite negative 0 leastExponent

/-- The natural number nearest to `num / den`, a half going to the even one. -/
def roundDiv (num den : Nat) : Nat :=
  let whole := num / den
  let twice := 2 * (num % den)
  if den < twice ∨ (twice = den ∧ whole % 2 = 1) then whole + 1 else whole

/-- Whether `num / den` is at least `2 ^ k`. -/
def atLeastPow (num den : Nat) (k : Int) : Bool :=
  if 0 ≤ k then decide (den * twoPow k.toNat ≤ num) else decide (den ≤ num * twoPow (-k).toNat)

/-- The greatest `k` with `2 ^ k` not above `num / den`, for positive `num` and `den`. -/
def floorLog (num den : Nat) : Int :=
  let guess : Int := (num.log2 : Int) - den.log2
  if atLeastPow num den guess then guess else guess - 1

/-- The quotient `num / den` in units of `2 ^ k`, rounded to a whole number. -/
def roundAt (num den : Nat) (k : Int) : Nat :=
  if 0 ≤ k then roundDiv num (den * twoPow k.toNat) else roundDiv (num * twoPow (-k).toNat) den

/-- A rounded mantissa with its exponent, carried over when rounding filled it up. -/
def pack (negative : Bool) (mantissa : Nat) (exponent : Int) : Binary64 :=
  let (mantissa, exponent) :=
    if mantissa = twoPow 53 then (twoPow 52, exponent + 1) else (mantissa, exponent)
  if greatestExponent < exponent then .infinity negative else .finite negative mantissa exponent

/-- The float nearest to `± num / den`. -/
def ofRatio (negative : Bool) (num den : Nat) : Binary64 :=
  if num = 0 then zero negative
  else
    -- A mantissa has 53 bits, and fewer only below the least exponent.
    let exponent := max (floorLog num den - 52) leastExponent
    pack negative (roundAt num den exponent) exponent

/-- The float nearest to an integer. -/
def ofInt (n : Int) : Binary64 := ofRatio (decide (n < 0)) n.natAbs 1

/-- The float nearest to a rational number. -/
def ofRat (q : Rat) : Binary64 := ofRatio (decide (q < 0)) q.num.natAbs q.den

/-- The float nearest to `± coefficient * 10 ^ exponent`.  Numbers of more than 310 digits before
the point, or more than 330 zeros after it, need no computation. -/
def ofScaled (negative : Bool) (coefficient : Nat) (exponent : Int) : Binary64 :=
  if coefficient = 0 then zero negative
  else
    let top := (Text.digitCount coefficient : Int) + exponent
    if 310 < top then .infinity negative
    else if top < -330 then zero negative
    else if 0 ≤ exponent then ofRatio negative (coefficient * tenPow exponent.toNat) 1
    else ofRatio negative coefficient (tenPow (-exponent).toNat)

/-- Whether a float is neither an infinity nor `nan`. -/
def isFinite : Binary64 → Bool
  | .finite .. => true
  | _ => false

/-- Whether a float is a zero of either sign. -/
def isZero : Binary64 → Bool
  | .finite _ mantissa _ => mantissa == 0
  | _ => false

def isPositive : Binary64 → Bool
  | .nan => false
  | .infinity negative => !negative
  | .finite negative mantissa _ => !negative && mantissa != 0

/-- An integer from its sign and size. -/
def signed (negative : Bool) (size : Nat) : Int := if negative then -(size : Int) else size

/-- The integer part of a finite float. -/
def truncate? : Binary64 → Option Int
  | .finite negative mantissa exponent =>
    some (signed negative
      (if 0 ≤ exponent then mantissa * twoPow exponent.toNat
        else mantissa / twoPow (-exponent).toNat))
  | _ => none

/-- Whether a float is finite and has no fraction. -/
def isWhole : Binary64 → Bool
  | .finite _ mantissa exponent => decide (0 ≤ exponent) || mantissa % twoPow (-exponent).toNat == 0
  | _ => false

/-- The exact value of a finite float. -/
def toRat? : Binary64 → Option Rat
  | .finite negative mantissa exponent =>
    some (if 0 ≤ exponent then (signed negative (mantissa * twoPow exponent.toNat) : Rat)
      else mkRat (signed negative mantissa) (twoPow (-exponent).toNat))
  | _ => none

end Binary64

end Rollout
