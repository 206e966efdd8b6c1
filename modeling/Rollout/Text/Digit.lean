/-
Decimal digits.

A digit may come from any of the scripts that count in tens: each has ten consecutive code points,
from zero to nine.

* `digit?` — the value of a decimal digit of any script;
* `asciiDigit?` — the value of one of `0` to `9` only;
* `ofDigits` — the number that a list of digits denotes.
-/

namespace Rollout.Text

/-- The code points of the zeros beyond ASCII, sorted. -/
def digitZeros : List Nat := [
  1632, 1776, 1984, 2406, 2534, 2662, 2790, 2918, 3046, 3174, 3302, 3430, 3558, 3664, 3792, 3872,
  4160, 4240, 6112, 6160, 6470, 6608, 6784, 6800, 6992, 7088, 7232, 7248, 42528, 43216, 43264,
  43472, 43504, 43600, 44016, 65296, 66720, 68912, 69734, 69872, 69942, 70096, 70384, 70736, 70864,
  71248, 71360, 71472, 71904, 72016, 72784, 73040, 73120, 92768, 92864, 93008, 120782, 120792,
  120802, 120812, 120822, 123200, 123632, 125264, 130032]

/-- The value of one of the ten ASCII digits. -/
def asciiDigit? (c : Char) : Option Nat :=
  if 48 ≤ c.toNat ∧ c.toNat ≤ 57 then some (c.toNat - 48) else none

/-- The value of a decimal digit. -/
def digit? (c : Char) : Option Nat :=
  if c.toNat < 128 then asciiDigit? c
  else digitZeros.findSome? fun base =>
    if base ≤ c.toNat ∧ c.toNat ≤ base + 9 then some (c.toNat - base) else none

/-- The number whose decimal digits are given, the leading one first. -/
def ofDigits (digits : List Nat) : Nat := digits.foldl (fun n d => 10 * n + d) 0

/-- The decimal text of a natural number. -/
def natText (n : Nat) : List Char := Nat.toDigits 10 n

/-- The decimal text of an integer. -/
def intText (n : Int) : List Char :=
  if n < 0 then '-' :: natText n.natAbs else natText n.natAbs

/-- The number of decimal digits of a natural number; zero has one. -/
def digitCount (n : Nat) : Nat := (natText n).length

end Rollout.Text
