/-
The characters that surround a number without belonging to it.

Two sets are in use.  `isBlank` holds the Unicode separators and the controls that separate lines,
fields and records; `isWhite` is the narrower Unicode property White_Space, which leaves the four
information separators out.

* `trimBy` — a text without the leading and trailing characters of a set.
-/

namespace Rollout.Text

/-- The Unicode property White_Space. -/
def isWhite (c : Char) : Bool :=
  let n := c.toNat
  (9 ≤ n && n ≤ 13) || n == 0x20 || n == 0x85 || n == 0xA0 || n == 0x1680
    || (0x2000 ≤ n && n ≤ 0x200A) || n == 0x2028 || n == 0x2029 || n == 0x202F
    || n == 0x205F || n == 0x3000

/-- White space, or one of the four information separators. -/
def isBlank (c : Char) : Bool :=
  isWhite c || (0x1C ≤ c.toNat && c.toNat ≤ 0x1F)

/-- A text without the leading and trailing characters of a set. -/
def trimBy (set : Char → Bool) (cs : List Char) : List Char :=
  ((cs.dropWhile set).reverse.dropWhile set).reverse

end Rollout.Text
