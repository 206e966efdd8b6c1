/-
Files of variables, one assignment a line.

A line may begin with `export`, a value may be quoted and then span lines, and a `#` after a blank
begins a comment.  A name in braces after a dollar sign stands for an earlier variable or one of
the environment.  A line that is none of this is skipped.

* `Dotenv.parse` — the assignments of a file in their order;
* `Dotenv.load` — the variables with all references resolved.
-/
import Rollout.Assoc
import Rollout.Text.Blank

namespace Rollout.Dotenv

open Rollout.Text

/-- An assignment.  A name on its own assigns nothing. -/
abbrev Assignment := String × Option String

/-- Whether a character ends a line. -/
def isBreak (c : Char) : Bool := c == '\n' || c == '\r'

/-- Whether a character is blank and does not end a line. -/
def isSpace (c : Char) : Bool := isBlank c && !isBreak c

/-- The text with every line ended by a line feed alone. -/
def unifyBreaks : List Char → List Char
  | '\r' :: '\n' :: rest => '\n' :: unifyBreaks rest
  | '\r' :: rest => '\n' :: unifyBreaks rest
  | c :: rest => c :: unifyBreaks rest
  | [] => []

/-- The text after a leading `export` and blanks. -/
def dropExport (cs : List Char) : List Char :=
  match cs with
  | 'e' :: 'x' :: 'p' :: 'o' :: 'r' :: 't' :: c :: rest =>
    if isSpace c then rest.dropWhile isSpace else cs
  | _ => cs

/-- The name that a line assigns; none for a comment. -/
def readName (cs : List Char) : Option (Option String × List Char) :=
  match cs with
  | '#' :: _ => some (none, cs)
  | '\'' :: rest =>
    match rest.span (· != '\'') with
    | (name, '\'' :: rest) => if name.isEmpty then none else some (some (.ofList name), rest)
    | _ => none
  | _ =>
    let (name, rest) := cs.span fun c => c != '=' && c != '#' && !isBlank c
    if name.isEmpty then none else some (some (.ofList name), rest)

/-- What stands before the closing quote, and what follows it.  A quote after a backslash closes
only when no other one does. -/
def untilQuote (quote : Char) : List Char → Option (List Char × List Char)
  | [] => none
  | c :: rest =>
    if c = quote then some ([], rest)
    else if c = '\\' then
      match rest with
      | [] => none
      | d :: tail =>
        if d = quote then
          match untilQuote quote tail with
          | some (inside, after) => some (c :: d :: inside, after)
          -- No other quote closes the value, so this one does, and the backslash stays.
          | none => some ([c], tail)
        else (untilQuote quote (d :: tail)).map fun (inside, after) => (c :: inside, after)
    else (untilQuote quote rest).map fun (inside, after) => (c :: inside, after)

/-- The character that a letter stands for after a backslash in double quotes. -/
def doubleEscape? (c : Char) : Option Char :=
  [('\\', '\\'), ('\'', '\''), ('"', '"'), ('a', '\x07'), ('b', '\x08'), ('f', '\x0c'),
    ('n', '\n'), ('r', '\r'), ('t', '\t'), ('v', '\x0b')].lookup c

/-- The character that a letter stands for after a backslash in single quotes. -/
def singleEscape? (c : Char) : Option Char :=
  if c = '\\' ∨ c = '\'' then some c else none

/-- A text with its escapes resolved; a backslash before anything else stays. -/
def unescape (escape? : Char → Option Char) : List Char → List Char
  | '\\' :: c :: rest =>
    match escape? c with
    | some d => d :: unescape escape? rest
    | none => '\\' :: unescape escape? (c :: rest)
  | c :: rest => c :: unescape escape? rest
  | [] => []

/-- A text up to the first `#` that follows a blank. -/
def dropComment (afterBlank : Bool) : List Char → List Char
  | [] => []
  | c :: rest => if afterBlank && c == '#' then [] else c :: dropComment (isBlank c) rest

/-- A text without the blanks at its end. -/
def trimEnd (cs : List Char) : List Char := (cs.reverse.dropWhile isBlank).reverse

/-- The value after an equals sign. -/
def readValue (cs : List Char) : Option (String × List Char) :=
  match cs with
  | '\'' :: rest =>
    (untilQuote '\'' rest).map fun (inside, after) =>
      (.ofList (unescape singleEscape? inside), after)
  | '"' :: rest =>
    (untilQuote '"' rest).map fun (inside, after) =>
      (.ofList (unescape doubleEscape? inside), after)
  | _ =>
    let (line, rest) := cs.span fun c => !isBreak c
    some (.ofList (trimEnd (dropComment false line)), rest)

/-- What follows the end of a line, which blanks and a comment may precede. -/
def endLine (cs : List Char) : Option (List Char) :=
  let rest := match cs.dropWhile isSpace with
    | '#' :: rest => rest.dropWhile fun c => !isBreak c
    | _ => cs
  match rest.dropWhile isSpace with
  | [] => some []
  | c :: rest => if isBreak c then some rest else none

/-- What follows the current line. -/
def skipLine (cs : List Char) : List Char := (cs.dropWhile fun c => !isBreak c).drop 1

/-- The assignment of one line, if it has one, and what follows it. -/
def readLine (cs : List Char) : Option Assignment × List Char :=
  let start := dropExport cs
  match readName start with
  | none => (none, skipLine start)
  | some (name, rest) =>
    let rest := rest.dropWhile isSpace
    match rest with
    | '=' :: after =>
      let after := after.dropWhile isSpace
      match readValue after with
      | none => (none, skipLine after)
      | some (value, after) =>
        match endLine after with
        | some next => (name.map (·, some value), next)
        | none => (none, skipLine after)
    -- A name on its own assigns nothing, and the line has to end after it.
    | _ =>
      match endLine rest with
      | some next => (name.map (·, none), next)
      | none => (none, skipLine rest)

/-- The assignments of a text; `fuel` bounds the number of lines. -/
def readLines : Nat → List Char → List Assignment
  | 0, _ => []
  | fuel + 1, cs =>
    match cs.dropWhile isBlank with
    | [] => []
    | cs =>
      match readLine cs with
      | (some assignment, rest) => assignment :: readLines fuel rest
      | (none, rest) => readLines fuel rest

/-- The assignments of a file. -/
def parse (text : String) : List Assignment :=
  let cs := unifyBreaks text.toList
  readLines cs.length cs

/-- A reference after its dollar sign: the name, the text for a missing one, and what follows. -/
def readReference (cs : List Char) : Option (String × String × List Char) :=
  match cs with
  | '\x7b' :: rest =>
    match rest.span fun c => c != '\x7d' && c != ':' with
    | (name, '\x7d' :: rest) => some (.ofList name, "", rest)
    | (name, ':' :: '-' :: rest) =>
      match rest.span (· != '\x7d') with
      | (missing, '\x7d' :: rest) => some (.ofList name, .ofList missing, rest)
      | _ => none
    | _ => none
  | _ => none

/-- A text with its references resolved; `fuel` bounds its length. -/
def resolve (find : String → Option (Option String)) : Nat → List Char → List Char
  | 0, cs => cs
  | _, [] => []
  | fuel + 1, c :: rest =>
    if c = '$' then
      match readReference rest with
      | some (name, missing, rest) =>
        ((match find name with
          | some value => value.getD ""
          | none => missing).toList) ++ resolve find fuel rest
      | none => c :: resolve find fuel rest
    else c :: resolve find fuel rest

/-- What a name stands for: an earlier variable, or else one of the environment. -/
def findVariable (earlier : Assoc String (Option String)) (environment : List (String × String))
    (name : String) : Option (Option String) :=
  match Assoc.find? name earlier with
  | some value => some value
  | none => (environment.lookup name).map some

/-- The variables of a list of assignments, with references resolved one by one. -/
def assign (environment : List (String × String)) (earlier : Assoc String (Option String)) :
    List Assignment → Assoc String (Option String)
  | [] => earlier
  | (name, value) :: rest =>
    let value := value.map fun s =>
      String.ofList (resolve (findVariable earlier environment) s.length s.toList)
    assign environment (Assoc.insert name value earlier) rest

/-- The variables of a file. -/
def load (environment : List (String × String)) (text : String) :
    Assoc String (Option String) :=
  assign environment [] (parse text)

end Rollout.Dotenv
