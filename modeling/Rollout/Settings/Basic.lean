/-
The settings of a provider.

Flags are evaluated either in process, from polled configurations, or by the assignment service;
the options of the two modes exclude each other.

* `Settings.ofMap` — settings from a map, or the paths of what is wrong with it;
* `Settings.mode`, `Settings.options` — the active mode and its options.
-/
import Rollout.FieldType
import Rollout.Text.Case

namespace Rollout

/-- Where variants are computed. -/
inductive EvaluationMode
  | inProcess | remote
deriving DecidableEq, Repr

def EvaluationMode.name : EvaluationMode → String
  | inProcess => "local"
  | remote => "remote"

/-- Options of evaluation in process. -/
structure LocalOptions where
  pollInterval : Binary64
deriving Repr

/-- Options of evaluation by the service. -/
structure RemoteOptions where
  fetchTimeout : Binary64
  cacheEnabled : Bool
  cacheTtl : Int
  cacheMaxSize : Int
deriving Repr

/-- The settings of a provider. -/
structure Settings where
  deploymentKey : String
  inProcess : Option LocalOptions
  remote : Option RemoteOptions
  extraAliases : List (String × String)
  logLevel : String
  logFormat : String
deriving Repr

/-- A field of an options record: its name, type and default. -/
structure OptionField where
  name : String
  type : FieldType
  default : Value
deriving Repr

/-- The fields of the options of evaluation in process. -/
def LocalOptions.fields : List OptionField := [
  ⟨"flag_config_poll_interval_seconds", .positiveNumber, .float (.ofInt 30)⟩]

/-- The fields of the options of evaluation by the service. -/
def RemoteOptions.fields : List OptionField := [
  ⟨"fetch_timeout_seconds", .positiveNumber, .float (.ofInt 10)⟩,
  ⟨"cache_enabled", .truth, .bool true⟩,
  ⟨"cache_ttl_seconds", .positiveInteger, .int 60⟩,
  ⟨"cache_max_size", .positiveInteger, .int 10000⟩]

/-- The options as a map of their fields. -/
def LocalOptions.value (o : LocalOptions) : Value :=
  .map [(.text "flag_config_poll_interval_seconds", .float o.pollInterval)]

/-- The options as a map of their fields. -/
def RemoteOptions.value (o : RemoteOptions) : Value :=
  .map [(.text "fetch_timeout_seconds", .float o.fetchTimeout),
    (.text "cache_enabled", .bool o.cacheEnabled),
    (.text "cache_ttl_seconds", .int o.cacheTtl),
    (.text "cache_max_size", .int o.cacheMaxSize)]

/-- The options in process for which none are given. -/
def LocalOptions.standard : LocalOptions := ⟨.ofInt 30⟩

/-- The fields of a record, each from a map or by its default. -/
def readOptions (fields : List OptionField) : Value → Except (List Path) (List Value)
  | .map entries =>
    gather (fields.map fun field =>
      match Assoc.find? (.text field.name) entries with
      | some v => below (.name field.name) (field.type.convert v)
      | none => .ok field.default)
  | _ => .error [[]]

/-- Options in process from a map of their fields. -/
def LocalOptions.ofValue (v : Value) : Except (List Path) LocalOptions :=
  match readOptions LocalOptions.fields v with
  | .ok [.float interval] => .ok ⟨interval⟩
  | .ok _ => .error [[]]
  | .error paths => .error paths

/-- Options of the service from a map of their fields. -/
def RemoteOptions.ofValue (v : Value) : Except (List Path) RemoteOptions :=
  match readOptions RemoteOptions.fields v with
  | .ok [.float timeout, .bool enabled, .int ttl, .int size] => .ok ⟨timeout, enabled, ttl, size⟩
  | .ok _ => .error [[]]
  | .error paths => .error paths

namespace Settings

/-- The name of the record in messages. -/
def recordName : String := "ProviderSettings"

/-- A text field. -/
def readText (entries : Attributes) (name default : String) : Except (List Path) String :=
  match Assoc.find? (.text name) entries with
  | none => .ok default
  | some v =>
    match convertText v with
    | some (.text s) => .ok s
    | _ => .error [[.name name]]

/-- A record of options, which may be missing or null. -/
def readRecord {α : Type} (entries : Attributes) (name : String)
    (ofValue : Value → Except (List Path) α) : Except (List Path) (Option α) :=
  match (Assoc.find? (.text name) entries).getD .null with
  | .null => .ok none
  | v => (below (.name name) (ofValue v)).map some

/-- The added aliases, with texts as spellings and targets. -/
def readAliases (entries : Attributes) : Except (List Path) (List (String × String)) :=
  match below (.name "extra_aliases") ((FieldType.mapOf .text).convert
      ((Assoc.find? (.text "extra_aliases") entries).getD (.map []))) with
  | .ok v => .ok (v.entries.filterMap fun
      | (.text spelling, .text target) => some (spelling, target)
      | _ => none)
  | .error paths => .error paths

/-- Settings from a map; unknown entries are ignored.  Only when every field fits are the two
modes checked to exclude each other. -/
def ofMap (entries : Attributes) : Except (List Path) Settings :=
  let key := readText entries "deployment_key" ""
  let inProcess := readRecord entries "local" LocalOptions.ofValue
  let remote := readRecord entries "remote" RemoteOptions.ofValue
  let aliases := readAliases entries
  let level := readText entries "log_level" "INFO"
  let format := readText entries "log_format" "json"
  match key, inProcess, remote, aliases, level, format with
  | .ok _, .ok (some _), .ok (some _), .ok _, .ok _, .ok _ => .error [[]]
  | .ok key, .ok inProcess, .ok remote, .ok aliases, .ok level, .ok format =>
    .ok ⟨key, inProcess, remote, aliases, level, format⟩
  | _, _, _, _, _, _ =>
    .error (faults key ++ faults inProcess ++ faults remote ++ faults aliases ++ faults level
      ++ faults format)

def mode (s : Settings) : EvaluationMode := if s.remote.isSome then .remote else .inProcess

/-- The options of the active mode, as a map. -/
def options (s : Settings) : Value :=
  match s.remote with
  | some o => o.value
  | none => (s.inProcess.getD .standard).value

/-- Whether logs are written as JSON. -/
def logsJson (s : Settings) : Bool := Text.lower s.logFormat == "json"

end Settings

end Rollout
