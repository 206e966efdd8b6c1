/-
The outcome of evaluating a flag.

There are exactly three: the variant's payload as a value of the type asked for, the caller's
default because the flag says so, and the caller's default because something failed.

* `evaluateVariant` — the outcome for a variant.
-/
import Rollout.Coercion
import Rollout.Variant

namespace Rollout

/-- Why an outcome holds the value it does. -/
inductive Reason
  | resolved | default | error
deriving DecidableEq, Repr

def Reason.name : Reason → String
  | resolved => "RESOLVED"
  | default => "DEFAULT"
  | error => "ERROR"

/-- The outcome of an evaluation. -/
inductive Outcome
  | resolved (value : Value) (variant : String) (metadata : Attributes)
  | defaulted (value : Value)
  | failed (value : Value) (kind : ErrorKind) (message : String)
deriving Repr

namespace Outcome

/-- The value that the caller gets. -/
def value : Outcome → Value
  | resolved value _ _ => value
  | defaulted value => value
  | failed value _ _ => value

def reason : Outcome → Reason
  | resolved .. => .resolved
  | defaulted _ => .default
  | failed .. => .error

/-- The kind of failure, if any. -/
def kind : Outcome → ErrorKind
  | failed _ kind _ => kind
  | _ => .none

/-- What failed, if anything. -/
def message? : Outcome → Option String
  | failed _ _ message => some message
  | _ => none

/-- The key of the variant that the value comes from. -/
def variant? : Outcome → Option String
  | resolved _ variant _ => some variant
  | _ => none

/-- The details of the variant that the value comes from. -/
def metadata : Outcome → Attributes
  | resolved _ _ metadata => metadata
  | _ => []

def isFailed : Outcome → Bool
  | failed .. => true
  | _ => false

end Outcome

/-- The payload of a variant as a value of a type; none for the caller's default. -/
def Variant.coerce (type : FlagType) (v : Variant) : Except Failure (Option Value) :=
  match Payload.ofValue v.payload with
  | .ok payload => type.coerce payload
  | .error failure => .error failure

/-- The outcome for a variant.  A failure that the library reports becomes part of the outcome;
any other is passed on. -/
def evaluateVariant (type : FlagType) (v : Variant) (default : Value) :
    Except Failure Outcome :=
  if v.isOff then .ok (.defaulted default)
  else match v.coerce type with
    | .ok (some value) => .ok (.resolved value v.key v.details)
    | .ok none => .ok (.defaulted default)
    | .error (.reported report _) => .ok (.failed default report.cls.kind report.message)
    | .error failure => .error failure

end Rollout
