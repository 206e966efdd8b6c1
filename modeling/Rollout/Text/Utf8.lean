/-
Text as octets in UTF-8.

* `encodeUtf8` — the octets of a text;
* `decodeUtf8` — the text of a list of octets, or the position of the first octet that does not
  begin a well-formed sequence.
-/

namespace Rollout.Text

/-- The octets of a text. -/
def encodeUtf8 (cs : List Char) : List UInt8 := cs.flatMap String.utf8EncodeChar

/-- Whether an octet continues a sequence. -/
def isTail (b : UInt8) : Bool := 0x80 ≤ b && b ≤ 0xBF

/-- Whether `b` may follow the lead octet `a`: the lead rules out overlong forms, surrogates and
code points past the last plane. -/
def isSecond (a b : UInt8) : Bool :=
  if a = 0xE0 then 0xA0 ≤ b && b ≤ 0xBF
  else if a = 0xED then 0x80 ≤ b && b ≤ 0x9F
  else if a = 0xF0 then 0x90 ≤ b && b ≤ 0xBF
  else if a = 0xF4 then 0x80 ≤ b && b ≤ 0x8F
  else isTail b

/-- The number of octets in the sequence that a lead octet begins; zero when it begins none. -/
def sequenceLength (a : UInt8) : Nat :=
  if a ≤ 0x7F then 1
  else if 0xC2 ≤ a && a ≤ 0xDF then 2
  else if 0xE0 ≤ a && a ≤ 0xEF then 3
  else if 0xF0 ≤ a && a ≤ 0xF4 then 4
  else 0

/-- The first character of a list of octets and the octets after it. -/
def decodeChar? : List UInt8 → Option (Char × List UInt8)
  | [] => none
  | a :: rest =>
    match sequenceLength a, rest with
    | 1, rest => some (Char.ofNat a.toNat, rest)
    | 2, b :: rest =>
      if isTail b then
        some (Char.ofNat ((a.toNat - 0xC0) * 64 + (b.toNat - 0x80)), rest)
      else none
    | 3, b :: c :: rest =>
      if isSecond a b && isTail c then
        some (Char.ofNat
          ((a.toNat - 0xE0) * 4096 + (b.toNat - 0x80) * 64 + (c.toNat - 0x80)), rest)
      else none
    | 4, b :: c :: d :: rest =>
      if isSecond a b && isTail c && isTail d then
        some (Char.ofNat ((a.toNat - 0xF0) * 262144 + (b.toNat - 0x80) * 4096
          + (c.toNat - 0x80) * 64 + (d.toNat - 0x80)), rest)
      else none
    | _, _ => none

/-- Decoding with a bound on the number of characters; `total` is the length of the whole input. -/
def decodeUtf8Within (total : Nat) : Nat → List UInt8 → Except Nat (List Char)
  | _, [] => .ok []
  | 0, rest => .error (total - rest.length)
  | fuel + 1, rest =>
    match decodeChar? rest with
    | none => .error (total - rest.length)
    | some (c, rest) => (c :: ·) <$> decodeUtf8Within total fuel rest

/-- The text of a list of octets, or the position of the first malformed sequence. -/
def decodeUtf8 (octets : List UInt8) : Except Nat (List Char) :=
  decodeUtf8Within octets.length octets.length octets

end Rollout.Text
