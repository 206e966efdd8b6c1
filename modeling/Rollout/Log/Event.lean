/-
Log events as data.

* `LogEvent` — what happened, how much it matters, and who says so;
* `LogEvent.fieldMap` — an event as a flat map.
-/
import Rollout.Value

namespace Rollout

/-- How much an event matters. -/
inductive LogLevel
  | debug | info | warning | error | critical
deriving DecidableEq, Repr

def LogLevel.name : LogLevel → String
  | debug => "debug"
  | info => "info"
  | warning => "warning"
  | error => "error"
  | critical => "critical"

/-- The rank of a level; an event is written when its rank is not below the threshold. -/
def LogLevel.rank : LogLevel → Nat
  | debug => 10
  | info => 20
  | warning => 30
  | error => 40
  | critical => 50

/-- An event with its fields. -/
structure LogEvent where
  level : LogLevel
  logger : Option String
  event : String
  fields : Assoc String Value
deriving Repr

/-- The name of the logger, the fields and the event in one map; the event is written last, and an
empty name is left out. -/
def LogEvent.fieldMap (e : LogEvent) : Assoc String Value :=
  let named := match e.logger.filter (· != "") with
    | some name => [("logger_name", Value.text name)]
    | none => []
  Assoc.insert "event" (.text e.event) (Assoc.update named e.fields)

end Rollout
