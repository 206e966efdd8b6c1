/-
Records built from attributes.

Attributes are sorted, fitted to the fields of a record, and handed to a hook that may change the
record, act on the outside, or fail.  All failures are reported as unusable contexts, with the text
of what a hook threw; a hook whose failure has no text gets past the report.

* `buildSubject` — the subject of a context, which must identify someone before and after the hook;
* `buildOccurrence` — the occurrence of an event, from a context and the details of the event.
-/
import Rollout.Normalization
import Rollout.Record

namespace Rollout

/-- A hook that may change a subject.  It sees the caller's attributes and the outside `σ`. -/
abbrev SubjectHook (σ : Type) := Attributes → Subject → σ → Except Failure Subject × σ

/-- What a hook sees of a tracked event. -/
structure Event where
  attributes : Attributes
  eventType : String
  value : Value
  details : Attributes
deriving Repr

/-- A hook that may change an occurrence. -/
abbrev OccurrenceHook (σ : Type) := Event → Occurrence → σ → Except Failure Occurrence × σ

/-- A shape with its article. -/
def Shape.phrase : Shape → String
  | .subject => "a subject"
  | .occurrence => "an occurrence"

/-- Sorted attributes as a map of the fields of a record. -/
def Normalization.fieldMap (shape : Shape) (n : Normalization) : Attributes :=
  (Assoc.insert shape.overflowKey.wireName (.map n.overflow) n.fields).map
    fun (name, value) => (Value.text name, value)

/-- Sorted attributes fitted to the fields of a record. -/
def Normalization.toRecord (shape : Shape) (n : Normalization) :
    Except Failure (Record shape) :=
  match Record.ofMap shape (n.fieldMap shape) with
  | .ok record => .ok record
  | .error paths => .error (.invalidContext
      ("context cannot be projected onto " ++ shape.phrase ++ ": " ++ toString paths.length
        ++ " invalid field(s)") n (some (.invalid shape.recordName paths)))

/-- The failure of a hook as an unusable context. -/
def hookFailure (what : String) (n : Normalization) (failure : Failure) : Failure :=
  failure.handled fun message => .invalidContext (what ++ message) n (some failure)

section Build

variable {σ : Type}

/-- A subject after its hook, which must leave it identified. -/
def applySubjectHook (hook : SubjectHook σ) (attributes : Attributes) (n : Normalization)
    (subject : Subject) (w : σ) : Except Failure Subject × σ :=
  match hook attributes subject w with
  | (.error failure, w) =>
    (.error (hookFailure "subject hook failed: " n failure), w)
  | (.ok subject, w) =>
    if subject.hasIdentity then (.ok subject, w)
    else (.error (.invalidContext "subject hook removed the subject identity" n none), w)

/-- The subject of a context. -/
def buildSubject (table : AliasTable) (hook : Option (SubjectHook σ)) (attributes : Attributes)
    (w : σ) : Except Failure Subject × σ :=
  match normalizeSubject table attributes with
  | .error failure => (.error failure, w)
  | .ok n =>
    match n.toRecord .subject with
    | .error failure => (.error failure, w)
    | .ok subject =>
      match hook with
      | none => (.ok subject, w)
      | some hook => applySubjectHook hook attributes n subject w

/-- The attributes of an event, sorted.  Details win over the context, a value that counts as
given over both, and the type of the event over everything. -/
def normalizeEvent (table : AliasTable) (event : Event) : Normalization :=
  let n := normalize table .occurrence event.attributes
  let n := if event.details.isEmpty then n
    else n.merge (normalize table .occurrence event.details)
  let n := if event.value.isTruthy then n.put .revenue event.value else n
  n.put .eventType (.text event.eventType)

/-- The occurrence of an event. -/
def buildOccurrence (table : AliasTable) (hook : Option (OccurrenceHook σ)) (event : Event)
    (w : σ) : Except Failure Occurrence × σ :=
  let n := normalizeEvent table event
  match n.toRecord .occurrence with
  | .error failure => (.error failure, w)
  | .ok occurrence =>
    match hook with
    | none => (.ok occurrence, w)
    | some hook =>
      match hook event occurrence w with
      | (.ok occurrence, w) => (.ok occurrence, w)
      | (.error failure, w) =>
        (.error (hookFailure "occurrence hook failed: " n failure), w)

end Build

end Rollout
