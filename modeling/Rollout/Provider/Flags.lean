/-
Flags evaluated by a provider.

The stages follow one another: the phase is checked, the subject is built from the context, the
client is asked for the variant, and its payload is converted.  The first stage that fails decides
the outcome, which then holds the caller's default, and is logged once.

* `Provider.fetch` — the variant of a flag;
* `Provider.evaluate` — the outcome for a flag.
-/
import Rollout.Evaluation
import Rollout.Provider.Lifecycle

namespace Rollout

/-- The failure of evaluating in a phase; none when the provider is ready. -/
def Phase.refusal : Phase → Option Failure
  | .ready => none
  | .notReady => some (.report .notReady "provider not ready")
  | .failed => some (.report .errorState "provider in error state")

namespace Provider

variable {σ : Type}

/-- The failure of a client that could not tell the variant of a flag. -/
def assignmentFailure (flag : String) (failure : Failure) : Failure :=
  failure.handled fun message =>
    (Failure.reportCause .assignment ("assignment failed: " ++ message) failure).withContext
      [(.text "flag", .text flag)]

/-- The variant of a flag for a subject. -/
def assign (p : Provider σ) (flag : String) (subject : Subject) : Action σ Variant := fun w =>
  match p.client.evaluate subject [flag] w with
  | (.error failure, w) => (.error (assignmentFailure flag failure), w)
  | (.ok variants, w) =>
    match Assoc.find? flag variants with
    | some variant => (.ok variant, w)
    | none => (.error (.flagNotFound flag), w)

/-- The variant of a flag for a context. -/
def fetch (p : Provider σ) (s : State) (flag : String) (context : Attributes) :
    Action σ Variant := fun w =>
  match s.phase.refusal with
  | some failure => (.error failure, w)
  | none =>
    match buildSubject s.aliases p.subjectHook context w with
    | (.error failure, w) => (.error failure, w)
    | (.ok subject, w) => p.assign flag subject w

/-- The event of an evaluation that failed. -/
def failedEvent (type : FlagType) (flag : String) (kind : ErrorKind) (message : String) :
    LogEvent :=
  event .warning "flag_evaluation_failed"
    [("flag", .text flag), ("flag_type", .text type.name), ("error_kind", .text kind.name),
      ("message", .text message)]

/-- The outcome of an evaluation that failed, logged. -/
def fail (p : Provider σ) (type : FlagType) (flag : String) (default : Value) (kind : ErrorKind)
    (message : String) : Action σ Outcome := fun w =>
  (.ok (.failed default kind message), p.log (failedEvent type flag kind message) w)

/-- The outcome for a flag.  Failures that the library reports become part of it; any other is
passed on. -/
def evaluate (p : Provider σ) (s : State) (type : FlagType) (flag : String) (default : Value)
    (context : Attributes) : Action σ Outcome := fun w =>
  match p.fetch s flag context w with
  | (.error (.reported report _), w) =>
    p.fail type flag default report.cls.kind report.message w
  | (.error failure, w) => (.error failure, w)
  | (.ok variant, w) =>
    match evaluateVariant type variant default with
    | .ok (.failed _ kind message) => p.fail type flag default kind message w
    | .ok outcome => (.ok outcome, w)
    | .error failure => (.error failure, w)

end Provider

end Rollout
