/-
Command lines.

An option is given by its long name, with its value after `=` or as the next argument, or by its
short name, with its value at once or as the next argument.  After `--` nothing is an option.

* `readOption` — how one argument reads;
* `Arguments.read` — a list of arguments; none when it does not fit the options that are known.
-/

namespace Rollout

/-- An option of a command. -/
structure CommandOption where
  /-- The long name, with its dashes. -/
  name : String
  /-- The short name, without its dash. -/
  short : Option Char
  takesValue : Bool
deriving DecidableEq, Repr

/-- The arguments of a command: the options in the order given, each with its value, which is empty
for an option that takes none, and the other arguments. -/
structure Arguments where
  options : List (String × String)
  positional : List String
deriving DecidableEq, Repr

/-- How one argument reads. -/
inductive Reading
  /-- It is no option. -/
  | positional
  /-- An option that is complete, with its value. -/
  | complete (o : CommandOption) (value : String)
  /-- An option whose value is the next argument. -/
  | pending (o : CommandOption)
  /-- It looks like an option and is none. -/
  | unknown
deriving Repr

/-- How an option reads after its short name. -/
def readShort (known : List CommandOption) (c : Char) (rest : List Char) : Reading :=
  match known.find? (·.short == some c) with
  | none => .unknown
  | some o =>
    match o.takesValue, rest with
    | true, [] => .pending o
    | true, value => .complete o (.ofList value)
    | false, [] => .complete o ""
    | false, _ => .unknown

/-- How an option reads after its long name; `attached` is what follows `=`. -/
def readLong (o : CommandOption) (attached : Option (List Char)) : Reading :=
  match o.takesValue, attached with
  | true, some value => .complete o (.ofList value)
  | true, none => .pending o
  | false, none => .complete o ""
  | false, some _ => .unknown

/-- A text up to its first `=`, and what follows that. -/
def splitEquals : List Char → List Char × Option (List Char)
  | [] => ([], none)
  | c :: rest =>
    if c = '=' then ([], some rest)
    else
      match splitEquals rest with
      | (name, attached) => (c :: name, attached)

/-- How one argument reads. -/
def readOption (known : List CommandOption) (arg : String) : Reading :=
  match arg.toList with
  | '-' :: c :: rest =>
    match splitEquals ('-' :: c :: rest) with
    | (name, attached) =>
      match known.find? (·.name.toList == name) with
      | some o => readLong o attached
      | none => if c = '-' then .unknown else readShort known c rest
  | _ => .positional

namespace Arguments

/-- One more option in front. -/
def addOption (o : CommandOption) (value : String) (a : Arguments) : Arguments :=
  { a with options := (o.name, value) :: a.options }

/-- One more argument in front that is no option. -/
def addPositional (arg : String) (a : Arguments) : Arguments :=
  { a with positional := arg :: a.positional }

/-- Reads arguments.  Unless options may follow other arguments, the first argument that is no
option ends them. -/
def read (known : List CommandOption) (mixed : Bool) : List String → Option Arguments
  | [] => some ⟨[], []⟩
  | [arg] =>
    if arg = "--" then some ⟨[], []⟩
    else
      match readOption known arg with
      | .positional => some ⟨[], [arg]⟩
      | .complete o value => some ⟨[(o.name, value)], []⟩
      | .pending _ | .unknown => none
  | arg :: next :: rest =>
    if arg = "--" then some ⟨[], next :: rest⟩
    else
      match readOption known arg with
      | .positional =>
        if mixed then (read known mixed (next :: rest)).map (addPositional arg)
        else some ⟨[], arg :: next :: rest⟩
      | .complete o value => (read known mixed (next :: rest)).map (addOption o value)
      | .pending o => (read known mixed rest).map (addOption o next)
      | .unknown => none

/-- Whether an option is given. -/
def has (a : Arguments) (name : String) : Bool := a.options.any (·.1 == name)

/-- The last value that is given for an option. -/
def value? (a : Arguments) (name : String) : Option String := a.options.reverse.lookup name

end Arguments

end Rollout
