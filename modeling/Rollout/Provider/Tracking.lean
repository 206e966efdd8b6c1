/-
Events tracked by a provider.

* `Provider.track` — hands the occurrence of an event to the tracker, or drops it without one.
-/
import Rollout.Provider.Lifecycle

namespace Rollout

namespace Provider

variable {σ : Type}

/-- The event of an occurrence that nothing receives. -/
def droppedEvent (eventType : String) : LogEvent :=
  event .debug "tracking_event_dropped" [("event_type", .text eventType)]

/-- Hands an occurrence to the tracker. -/
def deliver (p : Provider σ) (eventType : String) (occurrence : Occurrence) (w : σ) : σ :=
  match p.tracker with
  | some send => send occurrence w
  | none => p.log (droppedEvent eventType) w

/-- Tracks an event.  An event that cannot be built is a failure and reaches no tracker. -/
def track (p : Provider σ) (s : State) (e : Event) : Action σ Occurrence := fun w =>
  match buildOccurrence s.aliases p.occurrenceHook e w with
  | (.error failure, w) => (.error failure, w)
  | (.ok occurrence, w) => (.ok occurrence, p.deliver e.eventType occurrence w)

end Provider

end Rollout
