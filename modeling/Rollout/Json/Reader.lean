/-
Reading JSON texts.

The grammar is that of RFC 8259 with three more words for the numbers that it leaves out.  A name
that an object repeats keeps its first place and its last value.  A fault is reported where the
text first goes wrong, by what is left of it there.

* `Json.read` — the value of a text, or the failure.
-/
import Rollout.Failure

namespace Rollout.Json

open Rollout.Text

/-- Why reading stopped: a fault at the place where `rest` is left, or a number that is too long. -/
inductive Stop
  | fault (what : Fault) (rest : List Char)
  | tooLong (digits : Nat)
deriving Repr

/-- Characters between tokens. -/
def isGap (c : Char) : Bool := c == ' ' || c == '\t' || c == '\n' || c == '\r'

/-- A text without the gap it begins with. -/
def skipGap (cs : List Char) : List Char := cs.dropWhile isGap

/-- What follows a word, if the text begins with it. -/
def dropWord? : List Char → List Char → Option (List Char)
  | [], cs => some cs
  | w :: word, c :: cs => if w = c then dropWord? word cs else none
  | _ :: _, [] => none

/-- The value of a hexadecimal digit. -/
def hexDigit? (c : Char) : Option Nat :=
  let n := c.toNat
  if 48 ≤ n ∧ n ≤ 57 then some (n - 48)
  else if 97 ≤ n ∧ n ≤ 102 then some (n - 87)
  else if 65 ≤ n ∧ n ≤ 70 then some (n - 55)
  else none

/-- The number of four hexadecimal digits. -/
def hexWord? (a b c d : Char) : Option Nat :=
  match hexDigit? a, hexDigit? b, hexDigit? c, hexDigit? d with
  | some a, some b, some c, some d => some (((a * 16 + b) * 16 + c) * 16 + d)
  | _, _, _, _ => none

/-- The character that a letter stands for after a backslash. -/
def escaped? (c : Char) : Option Nat :=
  if c = '"' ∨ c = '\\' ∨ c = '/' then some c.toNat
  else if c = 'b' then some 8
  else if c = 'f' then some 12
  else if c = 'n' then some 10
  else if c = 'r' then some 13
  else if c = 't' then some 9
  else none

/-- The units of a string up to its closing quote, and what follows it.  A unit is a code point or
one half of a surrogate pair.  `opening` is the text from the opening quote on. -/
def scanUnits (opening : List Char) : List Char → Except Stop (List Nat × List Char)
  | [] => .error (.fault .unterminatedString opening)
  | c :: rest =>
    if c = '"' then .ok ([], rest)
    else if c = '\\' then
      match rest with
      | [] => .error (.fault .unterminatedString opening)
      | e :: rest =>
        if e = 'u' then
          match rest with
          | h₁ :: h₂ :: h₃ :: h₄ :: next :: tail =>
            match hexWord? h₁ h₂ h₃ h₄ with
            | some n =>
              match scanUnits opening (next :: tail) with
              | .ok (units, rest) => .ok (n :: units, rest)
              | .error stop => .error stop
            | none => .error (.fault .badUnicodeEscape (e :: rest))
          | _ => .error (.fault .badUnicodeEscape (e :: rest))
        else
          match escaped? e with
          | some n =>
            match scanUnits opening rest with
            | .ok (units, rest) => .ok (n :: units, rest)
            | .error stop => .error stop
          | none => .error (.fault .badEscape (c :: e :: rest))
    else if c.toNat < 32 then .error (.fault .controlCharacter (c :: rest))
    else
      match scanUnits opening rest with
      | .ok (units, rest) => .ok (c.toNat :: units, rest)
      | .error stop => .error stop

/-- Whether a unit is the first half of a surrogate pair. -/
def isHigh (n : Nat) : Bool := 0xD800 ≤ n && n ≤ 0xDBFF

/-- Whether a unit is the second half of a surrogate pair. -/
def isLow (n : Nat) : Bool := 0xDC00 ≤ n && n ≤ 0xDFFF

/-- A code point as a character; half a pair on its own becomes the replacement character. -/
def unitChar (n : Nat) : Char := if isHigh n || isLow n then '\uFFFD' else Char.ofNat n

/-- The characters of a list of units. -/
def joinUnits : List Nat → List Char
  | [] => []
  | [n] => [unitChar n]
  | high :: low :: rest =>
    if isHigh high && isLow low then
      Char.ofNat (0x10000 + (high - 0xD800) * 1024 + (low - 0xDC00)) :: joinUnits rest
    else unitChar high :: joinUnits (low :: rest)

/-- A string after its opening quote. -/
def scanString (opening cs : List Char) : Except Stop (String × List Char) :=
  match scanUnits opening cs with
  | .ok (units, rest) => .ok (.ofList (joinUnits units), rest)
  | .error stop => .error stop

/-- The digits before the point: a zero alone, or digits that begin with none. -/
def scanWhole? (cs : List Char) : Option (List Nat × List Char) :=
  match cs with
  | '0' :: rest => some ([0], rest)
  | _ =>
    match Numeral.spanDigits asciiDigit? cs with
    | ([], _) => none
    | (digits, rest) => some (digits, rest)

/-- The digits after a point, if there are any. -/
def scanFraction (cs : List Char) : Option (List Nat) × List Char :=
  match cs with
  | '.' :: rest =>
    match Numeral.spanDigits asciiDigit? rest with
    | ([], _) => (none, cs)
    | (digits, rest) => (some digits, rest)
  | _ => (none, cs)

/-- The exponent after an `e`, if there is one. -/
def scanExponent (cs : List Char) : Option Int × List Char :=
  match cs with
  | e :: rest =>
    if e = 'e' ∨ e = 'E' then
      match Numeral.splitSign rest with
      | (negative, rest) =>
        match Numeral.spanDigits asciiDigit? rest with
        | ([], _) => (none, cs)
        | (digits, rest) => (some (Binary64.signed negative (ofDigits digits)), rest)
    else (none, cs)
  | [] => (none, cs)

/-- The value of a number: an integer, if it has neither point nor exponent. -/
def numberValue (negative : Bool) (whole : List Nat) (fraction : Option (List Nat))
    (exponent : Option Int) : Except Stop Value :=
  match fraction, exponent with
  | none, none =>
    if whole.length ≤ Numeral.maxDigits then
      .ok (.int (Binary64.signed negative (ofDigits whole)))
    else .error (.tooLong whole.length)
  | _, _ =>
    let part := fraction.getD []
    .ok (.float (.ofScaled negative (ofDigits (whole ++ part)) (exponent.getD 0 - part.length)))

/-- A number and what follows it. -/
def scanNumber (cs : List Char) : Except Stop (Value × List Char) :=
  let (negative, unsigned) := match cs with
    | '-' :: rest => (true, rest)
    | _ => (false, cs)
  match scanWhole? unsigned with
  | none => .error (.fault .expectingValue cs)
  | some (whole, rest) =>
    let (fraction, rest) := scanFraction rest
    let (exponent, rest) := scanExponent rest
    match numberValue negative whole fraction exponent with
    | .ok value => .ok (value, rest)
    | .error stop => .error stop

/-- The words that are values. -/
def words : List (List Char × Value) := [
  ("null".toList, .null), ("true".toList, .bool true), ("false".toList, .bool false),
  ("NaN".toList, .float .nan), ("Infinity".toList, .float (.infinity false)),
  ("-Infinity".toList, .float (.infinity true))]

/-- A value that is neither a string nor a container, and what follows it. -/
def scanAtom (cs : List Char) : Except Stop (Value × List Char) :=
  match words.findSome? fun word => (dropWord? word.1 cs).map fun rest => (word.2, rest) with
  | some found => .ok found
  | none => scanNumber cs

mutual

/-- A value and what follows it.  `fuel` bounds the depth and the number of members. -/
def scanValue : Nat → List Char → Except Stop (Value × List Char)
  | 0, cs => .error (.fault .expectingValue cs)
  | fuel + 1, cs =>
    match cs with
    | [] => .error (.fault .expectingValue [])
    | c :: rest =>
      if c = '"' then
        match scanString cs rest with
        | .ok (s, rest) => .ok (.text s, rest)
        | .error stop => .error stop
      else if c = '[' then
        match skipGap rest with
        | ']' :: rest => .ok (.list [], rest)
        | rest =>
          match scanItems fuel rest with
          | .ok (items, rest) => .ok (.list items, rest)
          | .error stop => .error stop
      else if c = '\x7b' then
        match skipGap rest with
        | '\x7d' :: rest => .ok (.map [], rest)
        | rest =>
          match scanMembers fuel rest with
          | .ok (members, rest) => .ok (.ofEntries members, rest)
          | .error stop => .error stop
      else scanAtom cs

/-- The items of a list up to its closing bracket. -/
def scanItems : Nat → List Char → Except Stop (List Value × List Char)
  | 0, cs => .error (.fault .expectingValue cs)
  | fuel + 1, cs =>
    match scanValue fuel cs with
    | .error stop => .error stop
    | .ok (value, rest) =>
      match skipGap rest with
      | ']' :: rest => .ok ([value], rest)
      | ',' :: rest =>
        match scanItems fuel (skipGap rest) with
        | .ok (items, rest) => .ok (value :: items, rest)
        | .error stop => .error stop
      | rest => .error (.fault .expectingComma rest)

/-- The members of an object up to its closing brace. -/
def scanMembers : Nat → List Char → Except Stop (List (Value × Value) × List Char)
  | 0, cs => .error (.fault .expectingName cs)
  | fuel + 1, cs =>
    match cs with
    | '"' :: rest =>
      match scanString cs rest with
      | .error stop => .error stop
      | .ok (name, rest) =>
        match skipGap rest with
        | ':' :: rest =>
          match scanValue fuel (skipGap rest) with
          | .error stop => .error stop
          | .ok (value, rest) =>
            match skipGap rest with
            | '\x7d' :: rest => .ok ([(.text name, value)], rest)
            | ',' :: rest =>
              match scanMembers fuel (skipGap rest) with
              | .ok (members, rest) => .ok ((.text name, value) :: members, rest)
              | .error stop => .error stop
            | rest => .error (.fault .expectingComma rest)
        | rest => .error (.fault .expectingColon rest)
    | _ => .error (.fault .expectingName cs)

end

/-- A whole text: one value with nothing but gaps around it. -/
def scanText (cs : List Char) : Except Stop Value :=
  match cs with
  | '\uFEFF' :: _ => .error (.fault .byteOrderMark cs)
  | _ =>
    match scanValue (2 * cs.length + 1) (skipGap cs) with
    | .error stop => .error stop
    | .ok (value, rest) =>
      match skipGap rest with
      | [] => .ok value
      | rest => .error (.fault .extraData rest)

/-- Where and why reading a text stopped, as a failure. -/
def Stop.toFailure (text : List Char) : Stop → Failure
  | .fault what rest => .malformedJson (.at what text (text.length - rest.length))
  | .tooLong digits => .numeralTooLong digits

/-- The value of a list of characters. -/
def readChars (cs : List Char) : Except Failure Value :=
  match scanText cs with
  | .ok value => .ok value
  | .error stop => .error (stop.toFailure cs)

/-- The value of a text. -/
def read (s : String) : Except Failure Value := readChars s.toList

end Rollout.Json
