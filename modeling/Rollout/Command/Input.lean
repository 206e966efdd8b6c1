/-
What commands read: settings, JSON objects and default values.

Input that cannot be used ends the command.

* `Input.settings` — the settings from the surroundings;
* `Input.object` — an option or a file that holds a JSON object;
* `Input.default` — the default value of an evaluation.
-/
import Rollout.Command.Request
import Rollout.Command.Transcript
import Rollout.Dump
import Rollout.Settings.Sources
import Rollout.Text.Digit

namespace Rollout.Input

open Rollout.Text

variable [Markup.Handlers]

/-- Something that was given does not fit its record. -/
def invalid (s : Surroundings) (what : String) (failure : Failure) : Ending :=
  .refuse (what ++ failure.wording ++ s.explain failure)

/-- The text of the file of variables, which must be in UTF-8. -/
def dotenvText (s : Surroundings) : Except Failure (Option String) :=
  match s.dotenv with
  | none => .ok none
  | some octets => (textOfBytes octets).map some

/-- The settings from arguments and from the surroundings. -/
def settings (s : Surroundings) (arguments : Attributes) : Except Ending Settings :=
  match (dotenvText s).bind fun file => Settings.load arguments s.environment file with
  | .ok settings => .ok settings
  | .error (.invalid record paths) =>
    .error (invalid s "invalid configuration: " (.invalid record paths))
  | .error failure => .error (.crashed failure)

/-- The value of a JSON text. -/
def json (option text : String) : Except Ending Value :=
  match Json.read text with
  | .ok v => .ok v
  | .error (.malformedJson e) =>
    .error (.refuse (option ++ " is not valid JSON: " ++ e.fault.reason))
  | .error failure => .error (.crashed failure)

/-- The entries of a JSON object. -/
def object (option text : String) : Except Ending Attributes :=
  match json option text with
  | .ok (.map entries) => .ok entries
  | .ok _ => .error (.refuse (option ++ " must be a JSON object"))
  | .error ending => .error ending

/-- A default that is not of its type. -/
def unusable (expected text : String) : Ending :=
  .refuse ("--default must be " ++ expected ++ ", got " ++ quoted text)

/-- The default of a type for which none is given. -/
def standardDefault : FlagType → Value
  | .boolean => .bool false
  | .string => .text ""
  | .integer => .int 0
  | .float => .float (.zero false)
  | .object => .null

/-- A truth value in any case. -/
def truth? (text : String) : Option Bool :=
  let word := lower text
  if word = "true" then some true else if word = "false" then some false else none

/-- The default that a text stands for. -/
def givenDefault (type : FlagType) (text : String) : Except Ending Value :=
  match type with
  | .string => .ok (.text text)
  | .boolean =>
    match truth? text with
    | some b => .ok (.bool b)
    | none => .error (unusable "true or false" text)
  | .integer =>
    match Numeral.lenientInteger? isBlank digit? text.toList with
    | some n => .ok (.int n)
    | none => .error (unusable "an integer" text)
  | .float =>
    match Numeral.lenientFloat? isBlank digit? text.toList with
    | some x => .ok (.float x)
    | none => .error (unusable "a number" text)
  | .object => json "--default" text

/-- The default of an evaluation. -/
def default (type : FlagType) : Option String → Except Ending Value
  | none => .ok (standardDefault type)
  | some text => givenDefault type text

end Rollout.Input
