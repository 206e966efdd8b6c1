/-
A provider as seen by the OpenFeature standard.

A context of the standard is flattened into plain attributes, with its targeting key under a name
of its own; outcomes become the resolution details of the standard.

* `OpenFeature.Context.flatten` — the attributes of a context;
* `OpenFeature.Details.ofOutcome` — the details of an outcome;
* `OpenFeature.resolve`, `OpenFeature.track` — flags and events of the standard.
-/
import Rollout.Provider.Flags
import Rollout.Provider.Tracking

namespace Rollout

namespace OpenFeature

/-- A context: who a flag is for, and any attributes. -/
structure Context where
  targetingKey : Option String
  attributes : Attributes
deriving Repr

/-- The name under which the targeting key is passed on. -/
def targetingKeyAttribute : String := "targetingKey"

/-- The attributes of a context and its targeting key, unless it is empty. -/
def Context.flatten (c : Context) : Attributes :=
  match c.targetingKey with
  | none => c.attributes
  | some key =>
    if key = "" then c.attributes
    else Assoc.insert (.text targetingKeyAttribute) (.text key) c.attributes

/-- The attributes of a context that may be missing. -/
def flatten (context : Option Context) : Attributes := (context.map Context.flatten).getD []

/-- The codes of the standard under which failures are reported. -/
inductive ErrorCode
  | providerNotReady | flagNotFound | invalidContext | typeMismatch | general
deriving DecidableEq, Repr

def ErrorCode.name : ErrorCode → String
  | .providerNotReady => "PROVIDER_NOT_READY"
  | .flagNotFound => "FLAG_NOT_FOUND"
  | .invalidContext => "INVALID_CONTEXT"
  | .typeMismatch => "TYPE_MISMATCH"
  | .general => "GENERAL"

/-- The code for a kind of failure.  The standard has none for what is no failure. -/
def ErrorCode.ofKind? : ErrorKind → Option ErrorCode
  | .none => none
  | .providerNotReady => some .providerNotReady
  | .flagNotFound => some .flagNotFound
  | .invalidContext => some .invalidContext
  | .typeMismatch => some .typeMismatch
  | .general => some .general

/-- The details of a resolved flag. -/
structure Details where
  value : Value
  variant : Option String
  reason : String
  errorCode : Option ErrorCode
  errorMessage : Option String
  metadata : Attributes
deriving Repr

/-- The word of the standard for a reason. -/
def reasonName : Reason → String
  | .resolved => "TARGETING_MATCH"
  | .default => "DEFAULT"
  | .error => "ERROR"

/-- Whether the metadata of the standard can hold a value. -/
def isPlain : Value → Bool
  | .bool _ | .int _ | .float _ | .text _ => true
  | _ => false

/-- The details of an outcome.  Metadata of other types than the standard knows is left out.  An
outcome that failed with a kind that has no code has no details. -/
def Details.ofOutcome : Outcome → Except Failure Details
  | .failed value kind message =>
    match ErrorCode.ofKind? kind with
    | some code => .ok ⟨value, none, reasonName .error, some code, some message, []⟩
    | none => .error (.missingKey (.text kind.name))
  | outcome => .ok ⟨outcome.value, outcome.variant?, reasonName outcome.reason, none, none,
      outcome.metadata.filter fun entry => isPlain entry.2⟩

variable {σ : Type}

/-- The details of a flag. -/
def resolve (p : Provider σ) (s : Provider.State) (type : FlagType) (flag : String)
    (default : Value) (context : Option Context) : Action σ Details := fun w =>
  let (outcome, w) := p.evaluate s type flag default (flatten context) w
  (outcome.bind Details.ofOutcome, w)

/-- The name under which rejected events are logged. -/
def loggerName : String := "flagbridge.openfeature_provider"

/-- The event of a tracked event that was rejected. -/
def rejectedEvent (eventType : String) (report : Report) (cause : Option Failure) :
    Except Failure LogEvent :=
  (report.entries cause).map fun entries =>
    ⟨.warning, some loggerName, "tracking_event_rejected",
      ("event_type", .text eventType) :: entries⟩

/-- The attributes of a tracked event; anything but a map counts as none. -/
def detailAttributes : Value → Attributes
  | .map entries => entries
  | _ => []

/-- Tracks an event.  An event that cannot be built is logged, and not sent. -/
def track (p : Provider σ) (s : Provider.State) (eventType : String) (context : Option Context)
    (value attributes : Value) : Action σ Unit := fun w =>
  match p.track s ⟨flatten context, eventType, value, detailAttributes attributes⟩ w with
  | (.ok _, w) => (.ok (), w)
  | (.error (.reported report cause), w) =>
    match rejectedEvent eventType report cause with
    | .ok event => (.ok (), p.log event w)
    | .error failure => (.error failure, w)
  | (.error failure, w) => (.error failure, w)

end OpenFeature

end Rollout
