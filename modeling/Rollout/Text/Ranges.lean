/-
Sets of characters given as sorted ranges of code points.

* `inRanges` — membership, which stops at the first range that begins too late.
-/

namespace Rollout.Text

/-- Whether a code point lies in one of the sorted ranges. -/
def inRanges : List (Nat × Nat) → Nat → Bool
  | [], _ => false
  | (first, last) :: rest, c =>
    if c < first then false else decide (c ≤ last) || inRanges rest c

end Rollout.Text
