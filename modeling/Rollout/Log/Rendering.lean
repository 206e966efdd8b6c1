/-
Log events as lines of JSON.

A line names the time as `@timestamp`, the level as `log.level` and the service as `service.name`.
Events below the threshold of a logger's setup are not written.

* `LogSetup.fields` — the members of the line of an event;
* `LogSetup.line?` — the line of an event, if it is written;
* `LogSetup.plainLines` — events as lines to be read by people.
-/
import Rollout.Json.Writer
import Rollout.Log.Event
import Rollout.Text.Case

namespace Rollout

/-- How events are written. -/
structure LogSetup where
  /-- The least rank that is written. -/
  threshold : Nat
  /-- The name of the service. -/
  service : String
  /-- Whether lines name the time. -/
  stamped : Bool
deriving Repr

/-- The ranks that a threshold may be named after. -/
def thresholds : List (String × Nat) := [
  ("CRITICAL", 50), ("FATAL", 50), ("ERROR", 40), ("WARN", 30), ("WARNING", 30), ("INFO", 20),
  ("DEBUG", 10), ("NOTSET", 0)]

/-- The rank of a threshold, whose name may be in any case. -/
def threshold (name : String) : Except Failure Nat :=
  match thresholds.lookup (Text.upper name) with
  | some rank => .ok rank
  | none => .error (.noLogLevel (Text.upper name))

namespace LogSetup

/-- Writes a member, whether or not it is there. -/
abbrev put (name : String) (value : Value) (members : Assoc String Value) : Assoc String Value :=
  Assoc.insert name value members

/-- Moves a member to the end under another name, where it replaces what is there. -/
def rename (name other : String) (members : Assoc String Value) : Assoc String Value :=
  match Assoc.find? name members with
  | some value => put other value (Assoc.erase name members)
  | none => members

/-- The members of the line of an event at a time.  The time and the level are always the event's
own; the service may be named by the event.  `stack_info` asks for a stack, and is no member. -/
def fields (setup : LogSetup) (time : String) (e : LogEvent) : Assoc String Value :=
  let members := e.fieldMap
  let members := if setup.stamped then put "timestamp" (.text time) members else members
  let members := Assoc.erase "stack_info" (put "level" (.text e.level.name) members)
  let members := Assoc.insertNew "service.name" (.text setup.service) members
  rename "level" "log.level" (rename "timestamp" "@timestamp" members)

/-- The line of an event at a time; none when the event is below the threshold. -/
def line? (setup : LogSetup) (time : String) (e : LogEvent) : Except Failure (Option String) :=
  if e.level.rank < setup.threshold then .ok none
  else
    (Json.write .log (.map ((setup.fields time e).map fun (name, v) => (.text name, v)))).map some

/-- The lines of several events; the first that cannot be written is a failure. -/
def lines (setup : LogSetup) (time : String) : List LogEvent → Except Failure (List String)
  | [] => .ok []
  | e :: rest =>
    match setup.line? time e with
    | .error failure => .error failure
    | .ok line => (lines setup time rest).map (line.toList ++ ·)

/-- An event as a line to be read by people: its level and name, and then its fields. -/
def plainLine (e : LogEvent) : String :=
  "[" ++ e.level.name ++ "] " ++ e.event
    ++ String.join (e.fields.map fun (name, v) => " " ++ name ++ "=" ++ v.literal)

/-- The plain lines of the events that are written. -/
def plainLines (setup : LogSetup) (events : List LogEvent) : List String :=
  (events.filter fun e => setup.threshold ≤ e.level.rank).map plainLine

end LogSetup

end Rollout
