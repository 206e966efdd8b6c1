/-
Text with tags in square brackets, as it is shown.

A tag such as `[bold]` opens a style, `[/bold]` closes the last style of that name that is open, and
`[/]` the last one at all; a closing tag needs a style to close.  A tag begins with a lower-case
letter or one of `#`, `/` and `@`, so other brackets are plain text.  Backslashes before a tag stand
for half as many, and an odd one makes the tag plain text.  A tag that begins with `@` names a handler,
whose parameters follow `=` and are read when the tag is closed.

* `Markup.Handlers` — which parameters of handlers can be read;
* `Markup.pieces` — a text as plain parts and tags;
* `Markup.shown` — the text without its tags, as it appears on the console.
-/
import Rollout.Failure
import Rollout.Text.Blank
import Rollout.Text.Case

namespace Rollout.Markup

open Rollout.Text

/-- A part of a marked-up text. -/
inductive Piece
  | plain (cs : List Char)
  | tag (content : List Char)
deriving DecidableEq, Repr

/-- Whether a tag may begin with a character. -/
def opensTag (c : Char) : Bool := c.isLower || c == '#' || c == '/' || c == '@'

/-- The rest of a tag up to its closing bracket, and what follows it. -/
def tagEnd? : List Char → Option (List Char × List Char)
  | [] => none
  | c :: rest =>
    if c = ']' then some ([], rest)
    else if c = '[' then none
    else (tagEnd? rest).map fun (content, rest) => (c :: content, rest)

/-- The content of the tag that a text begins with, and what follows it. -/
def tag? : List Char → Option (List Char × List Char)
  | '[' :: c :: rest =>
    if opensTag c then (tagEnd? rest).map fun (content, rest) => (c :: content, rest) else none
  | _ => none

/-- The tag that a text begins with after a number of backslashes, and what follows it. -/
def slashedTag? (cs : List Char) : Option (Nat × List Char × List Char) :=
  (tag? (cs.dropWhile (· == '\\'))).map fun (content, rest) =>
    ((cs.takeWhile (· == '\\')).length, content, rest)

/-- The pieces of a tag after a number of backslashes. -/
def slashedPieces (slashes : Nat) (content : List Char) : List Piece :=
  (if slashes / 2 = 0 then [] else [Piece.plain (List.replicate (slashes / 2) '\\')])
    ++ [if slashes % 2 = 1 then .plain ('[' :: content ++ [']']) else .tag content]

/-- Puts a character before the first piece. -/
def addPlain (c : Char) : List Piece → List Piece
  | .plain cs :: rest => .plain (c :: cs) :: rest
  | pieces => .plain [c] :: pieces

/-- The pieces of a text; each round takes at least one character, so as many rounds as there are
characters suffice. -/
def piecesWithin : Nat → List Char → List Piece
  | 0, _ => []
  | _, [] => []
  | rounds + 1, c :: rest =>
    match slashedTag? (c :: rest) with
    | some (slashes, content, after) => slashedPieces slashes content ++ piecesWithin rounds after
    | none => addPlain c (piecesWithin rounds rest)

/-- The plain parts and the tags of a text. -/
def pieces (cs : List Char) : List Piece := piecesWithin cs.length cs

/-- The short names of styles. -/
def shortNames : List (String × String) := [
  ("b", "bold"), ("d", "dim"), ("i", "italic"), ("u", "underline"), ("r", "reverse"),
  ("c", "conceal"), ("s", "strike"), ("uu", "underline2"), ("o", "overline")]

/-- The words of a text. -/
def words (cs : List Char) : List (List Char) :=
  (cs.splitBy fun a b => isBlank a == isBlank b).filter fun word => !word.all isBlank

/-- The name of a style in its full form. -/
def styleName (cs : List Char) : List String :=
  (words cs).map fun word =>
    let word := lower (.ofList word)
    (shortNames.lookup word).getD word

/-- The name of a tag, without its parameters. -/
def tagName (content : List Char) : List Char := content.takeWhile (· != '=')

/-- What the console can read as the parameters of a handler. -/
class Handlers where
  reads : String → Bool

/-- A tag that is open. -/
structure OpenTag where
  name : List String
  /-- The parameters of a handler; none for any other tag. -/
  parameters : List Char
deriving DecidableEq, Repr

/-- The tag that is opened by a content. -/
def OpenTag.ofContent (content : List Char) : OpenTag where
  name := styleName (tagName content)
  parameters := if content.head? = some '@' then (content.dropWhile (· != '=')).tail else []

/-- Whether the parameters of a tag can be read; a tag without any has none to read. -/
def OpenTag.isReadable [Handlers] (t : OpenTag) : Bool :=
  t.parameters.isEmpty || Handlers.reads (.ofList t.parameters)

/-- The tag that is closed by a closing tag of a name, and those that stay open; none when there is
nothing to close. -/
def close? (name : List String) : List OpenTag → Option (OpenTag × List OpenTag)
  | [] => none
  | t :: rest =>
    if name.isEmpty || t.name == name then some (t, rest)
    else (close? name rest).map fun (closed, rest) => (closed, t :: rest)

/-- The plain form of a piece that is no tag: a backslash before a bracket is left out. -/
def unescape : List Char → List Char
  | '\\' :: '[' :: rest => '[' :: unescape rest
  | c :: rest => c :: unescape rest
  | [] => []

/-- The plain text of pieces, given the tags that are open, the last one first. -/
def plainText [Handlers] : List OpenTag → List Piece → Except Failure (List Char)
  | _, [] => .ok []
  | tags, .plain cs :: rest => (plainText tags rest).map (unescape cs ++ ·)
  | tags, .tag content :: rest =>
    match tagName content with
    | '/' :: name =>
      match close? (styleName name) tags with
      | some (closed, tags) =>
        if closed.isReadable then plainText tags rest
        else .error (.unreadableTag (.ofList closed.parameters))
      | none => .error (.strayTag (.ofList content))
    | _ => plainText (.ofContent content :: tags) rest

/-- Whether a character is dropped by the console: the bell, the backspace, and the vertical tab,
form feed and carriage return. -/
def isDropped (c : Char) : Bool := [7, 8, 11, 12, 13].contains c.toNat

/-- A text with spaces up to the next multiple of eight columns for every tab. -/
def expandTabs (column : Nat) : List Char → List Char
  | [] => []
  | c :: rest =>
    if c = '\t' then
      List.replicate (8 - column % 8) ' ' ++ expandTabs (column + (8 - column % 8)) rest
    else c :: expandTabs (if c = '\n' then 0 else column + 1) rest

/-- The text of a marked-up text on the console. -/
def shown [Handlers] (markup : String) : Except Failure String :=
  (plainText [] (pieces markup.toList)).map fun cs =>
    .ofList (expandTabs 0 (cs.filter (!isDropped ·)))

end Rollout.Markup
