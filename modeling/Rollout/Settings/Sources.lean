/-
Where settings come from.

Arguments win over the environment, and the environment over a file of variables; the three are
merged key by key at every level.  A variable is named after its field, in any case, and reaches
into a nested field after a double underscore.  Nested fields may also be given whole, as JSON.

* `Settings.fromVariables` — the fields that a set of variables gives;
* `overlay` — two maps merged, the second on top;
* `Settings.load` — the settings from all sources.
-/
import Rollout.Json.Reader
import Rollout.Settings.Basic
import Rollout.Settings.Dotenv

namespace Rollout

mutual

/-- A map with the entries of another one written on top, nested maps merged. -/
def overlay : List (Value × Value) → Attributes → Attributes
  | [], base => base
  | (key, v) :: rest, base =>
    overlay rest (Assoc.insert key (overlayValue v (Assoc.find? key base)) base)

/-- A value on top of the one that was there. -/
def overlayValue : Value → Option Value → Value
  | .map entries, some (.map base) => .map (overlay entries base)
  | v, _ => v

end

/-- Variables by their names in lower case.  A name may be there without a value. -/
abbrev Variables := Assoc String (Option String)

/-- How a field is given by variables. -/
inductive SettingKind
  /-- A text, given as it is. -/
  | plain
  /-- A record, given as JSON or field by field. -/
  | options (fields : List OptionField)
  /-- A map of texts, given as JSON or entry by entry. -/
  | texts

namespace Settings

/-- The fields that variables may give. -/
def kinds : List (String × SettingKind) := [
  ("deployment_key", .plain), ("local", .options LocalOptions.fields),
  ("remote", .options RemoteOptions.fields), ("extra_aliases", .texts),
  ("log_level", .plain), ("log_format", .plain)]

/-- What the names of variables begin with, in lower case. -/
def variableStart : String := "flagbridge_"

/-- The parts of a name between double underscores. -/
def splitName : List Char → List (List Char)
  | '_' :: '_' :: rest => [] :: splitName rest
  | c :: rest =>
    match splitName rest with
    | [] => [[c]]
    | part :: parts => (c :: part) :: parts
  | [] => [[]]

/-- What follows a beginning, if the text has it. -/
def dropStart? (start name : List Char) : Option (List Char) :=
  if start.isPrefixOf name then some (name.drop start.length) else none

/-- Writes a value at the end of a path into nested maps, unless something else is in the way. -/
def place (entries : Attributes) : List String → Value → Attributes
  | [], _ => entries
  | [last], v => Assoc.insert (.text last) v entries
  | name :: rest, v =>
    match Assoc.find? (.text name) entries with
    | none => Assoc.insert (.text name) (.map (place [] rest v)) entries
    | some (.map inner) => Assoc.insert (.text name) (.map (place inner rest v)) entries
    | some _ => entries

/-- The value of a variable that gives a nested field. -/
def nestedValue (kind : SettingKind) (path : List String) : Option String → Value
  | none => .null
  | some s =>
    match kind, path with
    | .texts, _ :: _ :: _ =>
      if s = "" then .text s else ((Json.read s).toOption).getD (.text s)
    | _, _ => .text s

/-- The nested fields that variables give. -/
def nestedFields (kind : SettingKind) (start : String) (given : Variables) : Attributes :=
  given.foldl (fun entries (name, value) =>
    match dropStart? (start ++ "__").toList name.toList with
    | none => entries
    | some rest =>
      let path := (splitName rest).map String.ofList
      place entries path (nestedValue kind path value)) []

/-- The field of a record whose name is written in any case. -/
def knownName (fields : List OptionField) (name : Value) : Value :=
  match name with
  | .text s =>
    match fields.find? fun field => Text.lower field.name == Text.lower s with
    | some field => .text field.name
    | none => name
  | _ => name

/-- A record with its field names in their own case. -/
def restoreNames (kind : SettingKind) (v : Value) : Value :=
  match kind, v with
  | .options fields, .map entries =>
    .ofEntries (entries.map fun (name, v) => (knownName fields name, v))
  | _, v => v

/-- The value of a field that is given as JSON, with nested fields on top.  A record that is no
JSON stays a text, which will not fit; any other field cannot be read at all. -/
def complexValue (kind : SettingKind) (nested : Attributes) (field source text : String) :
    Except Failure Value :=
  match Json.read text, kind with
  | .ok (.map entries), _ => .ok (.map (overlay nested entries))
  | .ok v, _ => .ok v
  | .error _, .options _ => .ok (.text text)
  | .error _, _ => .error (.malformedSetting field source)

/-- The value that variables give a field; null when they give none. -/
def fieldValue (source : String) (given : Variables) (field : String) (kind : SettingKind) :
    Except Failure Value :=
  let full := variableStart ++ field
  match kind, (Assoc.find? full given).join with
  | .plain, found => .ok (match found with | some s => .text s | none => .null)
  | kind, none =>
    let nested := nestedFields kind full given
    .ok (if nested.isEmpty then .null else restoreNames kind (.map nested))
  | kind, some s =>
    (complexValue kind (nestedFields kind full given) field source s).map
      (restoreNames kind)

/-- The fields that variables give. -/
def fromVariables (source : String) (given : Variables) :
    List (String × SettingKind) → Except Failure Attributes
  | [] => .ok []
  | (field, kind) :: rest =>
    match fieldValue source given field kind with
    | .error failure => .error failure
    | .ok v =>
      (fromVariables source given rest).map fun entries =>
        if v.isNull then entries else (.text field, v) :: entries

/-- Variables with their names in lower case; of two that become equal the later stays. -/
def lowerNames (given : List (String × Option String)) : Variables :=
  Assoc.ofEntries (given.map fun (name, value) => (Text.lower name, value))

/-- The settings from arguments, the environment and the text of a file of variables. -/
def load (arguments : Attributes) (environment : List (String × String))
    (file : Option String) : Except Failure Settings :=
  let env := lowerNames (environment.map fun (name, value) => (name, some value))
  match fromVariables "EnvSettingsSource" env kinds with
  | .error failure => .error failure
  | .ok fromEnvironment =>
    let dotenv := lowerNames (Dotenv.load environment (file.getD ""))
    match fromVariables "DotEnvSettingsSource" dotenv kinds with
    | .error failure => .error failure
    | .ok fromFile =>
      match ofMap (overlay (overlay arguments fromEnvironment) fromFile) with
      | .ok settings => .ok settings
      | .error paths => .error (.invalid recordName paths)

end Settings

end Rollout
