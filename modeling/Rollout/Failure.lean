/-
What can go wrong, as causes.

The library reports failures of its own as a `Report`: a class, which fixes the kind that callers
see, a message and details.  Clients, caches and hooks throw what they like.  The remaining
constructors are the failures of conversions, each with the data that its message names.

The text of a failure may be one that cannot be taken: an integer of too many digits has none, and
an exception may have a text of its own making.  Whoever asks for such a text fails in turn.

* `Failure.message` — the text of a failure, or what comes of asking for it;
* `Failure.handled` — what a handler makes of a failure and its text;
* `Report.entries` — a reported failure as the fields of a log record.
-/
import Rollout.Normalization.Basic
import Rollout.Value.Display
import Rollout.Json.Error

namespace Rollout

/-- The kind of failure attached to a result. -/
inductive ErrorKind
  | none | providerNotReady | flagNotFound | invalidContext | typeMismatch | general
deriving DecidableEq, Repr

def ErrorKind.name : ErrorKind → String
  | .none => "NONE"
  | .providerNotReady => "PROVIDER_NOT_READY"
  | .flagNotFound => "FLAG_NOT_FOUND"
  | .invalidContext => "INVALID_CONTEXT"
  | .typeMismatch => "TYPE_MISMATCH"
  | .general => "GENERAL"

/-- The coarse class by which log records are routed. -/
inductive ErrorCategory
  | config | context | assignment | payload | lifecycle | internal
deriving DecidableEq, Repr

namespace ErrorCategory

def all : List ErrorCategory := [config, context, assignment, payload, lifecycle, internal]

def name : ErrorCategory → String
  | config => "CONFIG"
  | context => "CONTEXT"
  | assignment => "ASSIGNMENT"
  | payload => "PAYLOAD"
  | lifecycle => "LIFECYCLE"
  | internal => "INTERNAL"

def ofName? (name : String) : Option ErrorCategory := all.find? (·.name == name)

end ErrorCategory

/-- The classes of failures that the library reports. -/
inductive ErrorClass
  | base | notReady | errorState | startup | assignment | flagNotFound | invalidContext
  | typeMismatch | config | missingConfig | invalidConfig
deriving DecidableEq, Repr

namespace ErrorClass

def all : List ErrorClass := [
  base, notReady, errorState, startup, assignment, flagNotFound, invalidContext, typeMismatch,
  config, missingConfig, invalidConfig]

/-- The name of a class in log records. -/
def name : ErrorClass → String
  | base => "FlagBridgeError"
  | notReady => "ProviderNotReadyError"
  | errorState => "ProviderErrorStateError"
  | startup => "ProviderStartupError"
  | assignment => "AssignmentError"
  | flagNotFound => "FlagNotFoundError"
  | invalidContext => "InvalidContextError"
  | typeMismatch => "TypeMismatchError"
  | config => "ConfigError"
  | missingConfig => "MissingConfigError"
  | invalidConfig => "InvalidConfigError"

def ofName? (name : String) : Option ErrorClass := all.find? (·.name == name)

/-- A class and the classes that include it, the widest last. -/
def ancestry : ErrorClass → List ErrorClass
  | base => [base]
  | missingConfig => [missingConfig, config, base]
  | invalidConfig => [invalidConfig, config, base]
  | cls => [cls, base]

/-- The kind that callers see. -/
def kind : ErrorClass → ErrorKind
  | notReady => .providerNotReady
  | flagNotFound => .flagNotFound
  | invalidContext => .invalidContext
  | typeMismatch => .typeMismatch
  | _ => .general

/-- The category of a failure that names none. -/
def category : ErrorClass → ErrorCategory
  | base => .internal
  | notReady | errorState | startup => .lifecycle
  | assignment | flagNotFound => .assignment
  | invalidContext => .context
  | typeMismatch => .payload
  | config | missingConfig | invalidConfig => .config

end ErrorClass

/-- What clients, caches and hooks throw. -/
inductive Thrown
  | runtime | value | key | timeout | connection | os | type | attribute
deriving DecidableEq, Repr

/-- One step on the way to a part of a record: a name or a position. -/
inductive Step
  | name (s : String)
  | index (n : Int)
deriving DecidableEq, Repr

/-- The way to a part of a record. -/
abbrev Path := List Step

/-- A failure that the library reports. -/
structure Report where
  cls : ErrorClass
  message : String
  category : ErrorCategory
  context : Attributes
  flag : Option String
  record : Option Normalization
deriving Repr

/-- A cause of failure. -/
inductive Failure
  /-- A failure of the library, and what led to it. -/
  | reported (report : Report) (cause : Option Failure)
  /-- Thrown outside the library, with arguments. -/
  | thrown (what : Thrown) (args : List Value)
  /-- Thrown outside the library, with a text of its own making.  Asking for it may throw in turn. -/
  | foreign (text : Except (Thrown × List Value) String)
  /-- Parts of a record that do not fit their fields. -/
  | invalid (record : String) (paths : List Path)
  /-- A value that is not the name of a member of a closed set. -/
  | notMember (value : Value) (family : String)
  /-- A record without a field of that name. -/
  | noField (record field : String)
  /-- A key that a map does not hold. -/
  | missingKey (key : Value)
  /-- An entry written into something that is not a map. -/
  | notAssignable (value : Value)
  /-- Something other than a map where a map of entries is read. -/
  | noEntries (value : Value)
  /-- A text with too many digits for a whole number. -/
  | numeralTooLong (digits : Nat)
  /-- A whole number with too many digits for a text. -/
  | integerTooLong
  /-- A decimal that no float stands for. -/
  | signalingNan
  /-- A whole number beyond the floats. -/
  | floatOverflow
  /-- Bytes that are no text. -/
  | malformedUtf8 (octet : UInt8) (position : Nat)
  /-- A value that no dump can hold. -/
  | undumpable
  /-- A value of too many levels for a dump. -/
  | tooDeep
  /-- A value that JSON cannot hold. -/
  | notJson (value : Value)
  /-- A map key that JSON cannot hold. -/
  | notJsonKey (key : Value)
  /-- A text that is not JSON. -/
  | malformedJson (error : Json.SyntaxError)
  /-- A setting whose JSON text is malformed. -/
  | malformedSetting (field source : String)
  /-- An entry evicted from a cache that holds none. -/
  | nothingToEvict
  /-- A name that is no log level. -/
  | noLogLevel (name : String)
  /-- A store whose package is not there. -/
  | missingStore
  /-- A closing tag without a style to close. -/
  | strayTag (content : String)
  /-- A tag of a handler whose parameters cannot be read. -/
  | unreadableTag (parameters : String)
  /-- A shell that commands cannot be completed for. -/
  | noCompletion
deriving Repr, Inhabited

namespace Failure

/-- The wording of a thrown failure: its only argument, or all of them. -/
def thrownWording (what : Thrown) (args : List Value) : String :=
  match args with
  | [] => ""
  | [only] => if what = .key then only.literal else only.display
  | _ => (Value.tuple args).literal

/-- The wording of a failure, however many digits the integers in it have. -/
def wording : Failure → String
  | reported report _ => report.message
  | thrown what args => thrownWording what args
  | foreign text => text.toOption.getD ""
  | invalid record paths =>
    let plural := if paths.length = 1 then "" else "s"
    toString paths.length ++ " validation error" ++ plural ++ " for " ++ record
  | notMember value family => value.literal ++ " is not a valid " ++ family
  | noField record field => "\"" ++ record ++ "\" object has no field \"" ++ field ++ "\""
  | missingKey key => key.literal
  | notAssignable (.list _) => "list indices must be integers or slices, not str"
  | notAssignable value => "'" ++ value.kindName ++ "' object does not support item assignment"
  | noEntries value => "'" ++ value.kindName ++ "' object has no attribute 'items'"
  | numeralTooLong digits =>
    "Exceeds the limit (4300 digits) for integer string conversion: value has "
      ++ toString digits ++ " digits; use sys.set_int_max_str_digits() to increase the limit"
  | integerTooLong =>
    "Exceeds the limit (4300 digits) for integer string conversion; "
      ++ "use sys.set_int_max_str_digits() to increase the limit"
  | signalingNan => "cannot convert signaling NaN to float"
  | floatOverflow => "int too large to convert to float"
  | malformedUtf8 octet position =>
    "'utf-8' codec can't decode byte 0x" ++ .ofList (Text.hexText 2 octet.toNat)
      ++ " in position " ++ toString position ++ ": invalid utf-8"
  | undumpable => "Unable to serialize unknown type: <class 'object'>"
  | tooDeep => "Circular reference detected (depth exceeded)"
  | notJson value => "Object of type " ++ value.kindName ++ " is not JSON serializable"
  | notJsonKey key =>
    "keys must be str, int, float, bool or None, not " ++ key.kindName
  | malformedJson error => error.message
  | malformedSetting field source =>
    "error parsing value for field \"" ++ field ++ "\" from source \"" ++ source ++ "\""
  | nothingToEvict => "'dictionary is empty'"
  | noLogLevel name => "module 'logging' has no attribute '" ++ name ++ "'"
  | missingStore =>
    "Redis backend requires 'redis' package. Install with: pip install flagbridge[redis]"
  | strayTag content => "closing tag '[" ++ content ++ "]' doesn't match any open tag"
  | unreadableTag parameters => "error parsing " ++ Text.quoted parameters
  | noCompletion => "Shell not supported."

/-- The values whose forms the wording of a failure is made of. -/
def quoted : Failure → List Value
  | thrown _ args => args
  | notMember value _ => [value]
  | missingKey key => [key]
  | _ => []

/-- The text of a failure, or the failure of asking for it. -/
def message : Failure → Except Failure String
  | foreign (.ok text) => .ok text
  | foreign (.error (what, args)) => .error (.thrown what args)
  | failure =>
    if failure.quoted.all Value.hasLiteral then .ok failure.wording else .error .integerTooLong

/-- What a handler makes of a failure and its text.  A failure whose text cannot be taken gets past
the handler as the failure of asking for it. -/
def handled (failure : Failure) (handler : String → Failure) : Failure :=
  match failure.message with
  | .ok message => handler message
  | .error other => other

/-- A failure of the library without further details. -/
def report (cls : ErrorClass) (message : String) : Failure :=
  .reported ⟨cls, message, cls.category, [], none, none⟩ none

/-- A failure of the library with what led to it. -/
def reportCause (cls : ErrorClass) (message : String) (cause : Failure) : Failure :=
  .reported ⟨cls, message, cls.category, [], none, none⟩ (some cause)

/-- An unusable context, with the record as far as it was sorted. -/
def invalidContext (message : String) (record : Normalization) (cause : Option Failure) :
    Failure :=
  .reported ⟨.invalidContext, message, ErrorClass.invalidContext.category, [], none, some record⟩
    cause

/-- A payload of the wrong kind, with what was expected and what was found. -/
def typeMismatch (message expected found : String) (cause : Option Failure) : Failure :=
  .reported ⟨.typeMismatch, message, ErrorClass.typeMismatch.category,
    [(.text "expected", .text expected), (.text "payload_kind", .text found)], none, none⟩ cause

/-- A flag for which no variant was assigned. -/
def flagNotFound (flag : String) : Failure :=
  .reported ⟨.flagNotFound, "flag " ++ flag ++ " not found", ErrorClass.flagNotFound.category,
    [], some flag, none⟩ none

/-- The kind that callers see; a failure from outside is a general one. -/
def kind : Failure → ErrorKind
  | reported report _ => report.cls.kind
  | _ => .general

/-- The failure with more details, which replace those of the same name. -/
def withContext (details : Attributes) : Failure → Failure
  | reported report cause =>
    .reported { report with context := Assoc.update report.context details } cause
  | failure => failure

end Failure

/-- A reported failure as the fields of a log record, without its cause. -/
def Report.ownEntries (report : Report) : Assoc String Value :=
  [("error_type", .text report.cls.name), ("message", .text report.message),
    ("category", .text report.category.name), ("error_kind", .text report.cls.kind.name)]
  ++ if report.context.isEmpty then [] else [("context", .map report.context)]

/-- A reported failure as the fields of a log record, with the text of its cause. -/
def Report.entries (report : Report) (cause : Option Failure) :
    Except Failure (Assoc String Value) :=
  match cause with
  | none => .ok report.ownEntries
  | some failure =>
    failure.message.map fun message => report.ownEntries ++ [("cause", .text message)]

def Report.literal (report : Report) : String :=
  report.cls.name ++ "(" ++ Text.quoted report.message ++ ", kind=" ++ report.cls.kind.name ++ ")"

end Rollout
