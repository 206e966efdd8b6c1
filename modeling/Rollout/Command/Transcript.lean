/-
What comes of a command.

* `Ending.status` — the status that a command exits with;
* `Transcript` — what a command prints, how it ends, and what it logs;
* `Transcript.json`, `Transcript.lines`, `Transcript.table` — the three ways of printing.
-/
import Rollout.Console.Table
import Rollout.Json.Writer
import Rollout.Log.Event

namespace Rollout

/-- What a command prints. -/
inductive Printout
  | text (s : String)
  | table (t : Table)
deriving Repr

/-- How a command ends. -/
inductive Ending
  /-- It did what it was asked to do. -/
  | finished
  /-- It did so, and the result is an error. -/
  | negative
  /-- It was asked for help. -/
  | helped
  /-- The command line cannot be understood. -/
  | misused
  /-- Something that it was given cannot be used. -/
  | refused (message : String)
  /-- A failure that nothing handles. -/
  | crashed (failure : Failure)
deriving Repr

namespace Ending

/-- The status that a command exits with. -/
def status : Ending → Nat
  | finished | helped => 0
  | negative | crashed _ => 1
  | misused | refused _ => 2

/-- A refusal with a message, which may hold tags. -/
def refuse [Markup.Handlers] (message : String) : Ending :=
  match Markup.shown message with
  | .ok text => .refused text
  | .error failure => .crashed failure

end Ending

/-- What comes of a command. -/
structure Transcript where
  printout : Printout
  ending : Ending
  events : List LogEvent
deriving Repr

namespace Transcript

/-- Nothing is printed or logged. -/
def silent (ending : Ending) : Transcript := ⟨.text "", ending, []⟩

/-- A value is printed as JSON. -/
def json (v : Value) (ending : Ending) : Transcript :=
  match Json.write .indented v with
  | .ok text => ⟨.text (text ++ "\n"), ending, []⟩
  | .error failure => silent (.crashed failure)

/-- Lines are printed one after the other, as far as they can be. -/
def lines [Markup.Handlers] (ending : Ending) : List String → Transcript
  | [] => silent ending
  | line :: rest =>
    match Markup.shown line with
    | .error failure => silent (.crashed failure)
    | .ok text =>
      match lines ending rest with
      | ⟨.text more, ending, events⟩ => ⟨.text (text ++ "\n" ++ more), ending, events⟩
      | other => other

/-- A table is printed. -/
def table [Markup.Handlers] (t : Table) (ending : Ending) : Transcript :=
  match t.shown with
  | .ok t => ⟨.table t, ending, []⟩
  | .error failure => silent (.crashed failure)

end Transcript

end Rollout
