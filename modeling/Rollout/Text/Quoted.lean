/-
Text and bytes as they are quoted in messages.

The quote is `'`, unless the text holds a `'` and no `"`.  The quote and the backslash are written
after a backslash, the tab and the line breaks by their letters, and a character without a glyph
by its code in hexadecimal.

* `quoted` — the quoted form of a text;
* `quotedBytes` — the quoted form of a list of bytes, marked by a leading `b`.
-/
import Rollout.Text.Ranges
import Rollout.Text.PrintableTable

namespace Rollout.Text

/-- Whether a character is written as itself. -/
def isPrintable (c : Char) : Bool :=
  if c.toNat < 128 then 32 ≤ c.toNat && c.toNat < 127
  else !inRanges unprintableRanges c.toNat

/-- A number in lower-case hexadecimal, padded with zeros to a width. -/
def hexText (width n : Nat) : List Char :=
  let digits := Nat.toDigits 16 n
  List.replicate (width - digits.length) '0' ++ digits

/-- A code point as an escape of two, four or eight hexadecimal digits. -/
def codeEscape (n : Nat) : List Char :=
  if n ≤ 0xFF then '\\' :: 'x' :: hexText 2 n
  else if n ≤ 0xFFFF then '\\' :: 'u' :: hexText 4 n
  else '\\' :: 'U' :: hexText 8 n

/-- The quote for a text, given which of the two quotes it holds. -/
def chooseQuote (hasSingle hasDouble : Bool) : Char :=
  if hasSingle && !hasDouble then '"' else '\''

/-- One character inside quotes. -/
def quoteChar (quote c : Char) : List Char :=
  if c = quote ∨ c = '\\' then ['\\', c]
  else if c = '\n' then ['\\', 'n']
  else if c = '\r' then ['\\', 'r']
  else if c = '\t' then ['\\', 't']
  else if isPrintable c then [c]
  else codeEscape c.toNat

/-- The quoted form of a list of characters. -/
def quotedChars (cs : List Char) : List Char :=
  let quote := chooseQuote (cs.contains '\'') (cs.contains '"')
  quote :: cs.flatMap (quoteChar quote) ++ [quote]

/-- The quoted form of a text. -/
def quoted (s : String) : String := .ofList (quotedChars s.toList)

/-- One byte inside quotes. -/
def quoteByte (quote : Char) (b : UInt8) : List Char :=
  let c := Char.ofNat b.toNat
  if b.toNat < 128 then quoteChar quote c else codeEscape b.toNat

/-- The quoted form of a list of bytes. -/
def quotedBytes (bytes : List UInt8) : String :=
  let quote := chooseQuote (bytes.contains 39) (bytes.contains 34)
  .ofList ('b' :: quote :: bytes.flatMap (quoteByte quote) ++ [quote])

end Rollout.Text
