/-
The commands.

`aliases` lists the spellings of a name, `normalize` shows how a context is sorted into fields, and
`evaluate` evaluates a flag against variants from a file.

* `Command.aliases`, `Command.normalize`, `Command.evaluate` — what each command does;
* `Command.run` — a whole command line: the settings, the log level, and then the command.
-/
import Rollout.Command.Input
import Rollout.Command.Offline
import Rollout.Log.Rendering

namespace Rollout.Command

variable [Markup.Handlers]

/-- A map with texts as keys. -/
def object (members : List (String × Value)) : Value :=
  .map (members.map fun (name, v) => (.text name, v))

/-- A text, or null without one. -/
def optional : Option String → Value
  | some s => .text s
  | none => .null

/-- What `aliases` prints as text: the key that a name stands for, and its spellings. -/
def aliasLines (key : String) (canonical : Option CanonicalKey) (names : List String) :
    List String :=
  (match canonical with
    | none => "[yellow]" ++ Text.quoted key ++ " is not a recognized attribute name[/yellow]"
    | some target => "[bold]" ++ key ++ "[/bold] → [cyan]" ++ target.wireName ++ "[/cyan]")
  :: names.map ("  " ++ ·)

/-- Lists the spellings of a name. -/
def aliases (key : String) (json : Bool) : Transcript :=
  let names := (spellings key).eraseDups
  let canonical := AliasTable.standard.lookup key
  if json then
    .json (object [("key", .text key), ("canonical", optional (canonical.map (·.wireName))),
      ("aliases", .list (names.map .text))]) .finished
  else .lines .finished (aliasLines key canonical names)

/-- The rows of sorted attributes: the name, the value as JSON, and where it belongs. -/
def normalizedRows (kind : String) : List (String × Value) → Except Failure (List (List String))
  | [] => .ok []
  | (name, v) :: rest =>
    match Json.write .spaced v with
    | .error failure => .error failure
    | .ok text => (normalizedRows kind rest).map ([name, text, kind] :: ·)

/-- Sorted attributes as a table. -/
def normalizedTable (n : Normalization) : Transcript :=
  let named := n.overflow.map fun (name, v) => (name.display, v)
  match normalizedRows "canonical" n.fields, normalizedRows "overflow" named with
  | .ok fields, .ok overflow =>
    .table ⟨"Normalized (" ++ n.shape.name ++ ")", ["Field", "Value", "Kind"], fields ++ overflow⟩
      .finished
  | .error failure, _ => .silent (.crashed failure)
  | .ok _, .error failure => .silent (.crashed failure)

/-- Shows how a context is sorted into fields. -/
def normalize (context : String) (shape : Shape) (json : Bool) : Transcript :=
  match Input.object "--context" context with
  | .error ending => .silent ending
  | .ok attributes =>
    let n := Rollout.normalize .standard shape attributes
    if json then
      .json (object [("shape", .text n.shape.name), ("canonical", object n.fields),
        ("overflow", .map n.overflow), ("has_identity", .bool n.hasIdentity)]) .finished
    else normalizedTable n

/-- The members of an outcome. -/
def summary (r : EvaluationRequest) (o : Outcome) : List (String × Value) := [
  ("flag", .text r.flag), ("type", .text r.type.name), ("value", o.value),
  ("variant", optional o.variant?), ("reason", .text o.reason.name),
  ("error_kind", .text o.kind.name), ("message", optional o.message?),
  ("metadata", .map o.metadata)]

/-- The rows of a summary: a text as it is, any other value as JSON, and nothing for null. -/
def summaryRows : List (String × Value) → Except Failure (List (List String))
  | [] => .ok []
  | (_, .null) :: rest => summaryRows rest
  | (name, .text s) :: rest => (summaryRows rest).map ([name, s] :: ·)
  | (name, v) :: rest =>
    match Json.write .spaced v with
    | .error failure => .error failure
    | .ok text => (summaryRows rest).map ([name, text] :: ·)

/-- What is printed of an outcome.  An outcome that is an error makes the command one. -/
def showOutcome (r : EvaluationRequest) (o : Outcome) : Transcript :=
  let ending := if o.isFailed then .negative else .finished
  if r.json then .json (object (summary r o)) ending
  else
    match summaryRows (summary r o) with
    | .ok rows => .table ⟨"Flag " ++ r.flag, ["Field", "Value"], rows⟩ ending
    | .error failure => .silent (.crashed failure)

/-- The variants of a JSON object. -/
def variantsOf (s : Surroundings) (entries : Attributes) : Except Ending Variants :=
  match Variant.ofFlags (entries.map fun (flag, v) => (flag.display, v)) with
  | .ok variants => .ok variants
  | .error failure => .error (Input.invalid s "invalid variants file: " failure)

/-- A provider of variants.  Unusable settings end the command. -/
def providerOf (settings : Settings) (variants : Variants) :
    Except Ending (Provider Offline × Provider.State) :=
  match Offline.provider settings variants with
  | .ok provider => .ok provider
  | .error (.reported report _) => .error (.refuse report.message)
  | .error failure => .error (.crashed failure)

/-- What an evaluation works with: the provider, the default and the context.  They are read in the
order in which their faults are reported. -/
def prepare (s : Surroundings) (r : EvaluationRequest) :
    Except Ending ((Provider Offline × Provider.State) × Value × Attributes) := do
  let context ← Input.object "--context" r.context
  let default ← Input.default r.type r.default
  let entries ← Input.object "--variants" r.variants
  let settings ← Input.settings s [(.text "deployment_key", .text r.deploymentKey)]
  let variants ← variantsOf s entries
  return (← providerOf settings variants, default, context)

/-- Evaluates a flag against variants from a file. -/
def evaluate (s : Surroundings) (r : EvaluationRequest) : Transcript :=
  match prepare s r with
  | .error ending => .silent ending
  | .ok ((p, state), default, context) =>
    match Offline.evaluate p state r.type r.flag default context .fresh with
    | (.error failure, w) => { Transcript.silent (.crashed failure) with events := w.events }
    | (.ok outcome, w) => { showOutcome r outcome with events := w.events }

/-- What comes of a request. -/
def perform (s : Surroundings) : Request → Transcript
  | .aliases key json => aliases key json
  | .normalize context shape json => normalize context shape json
  | .evaluate r => evaluate s r

/-- How a command line ends that is not carried out. -/
def refusalEnding (s : Surroundings) : Refusal → Ending
  | .help => .helped
  | .completion option => if s.completes option then .helped else .crashed .noCompletion
  | .misuse => .misused

/-- How the events of a command are written: as JSON or not, and from which rank on. -/
structure LogStyle where
  json : Bool
  setup : LogSetup
deriving Repr

/-- The log level of a command line: the one that it names, unless that is empty, or else the one of
the settings. -/
def logStyle (line : CommandLine) (settings : Settings) : Except Ending LogStyle :=
  let name := match line.logLevel with
    | some level => if level = "" then settings.logLevel else level
    | none => settings.logLevel
  match threshold name with
  | .ok rank => .ok ⟨settings.logsJson, rank, Provider.name, true⟩
  | .error failure => .error (.crashed failure)

/-- How events are written for a command line. -/
def configure (s : Surroundings) (line : CommandLine) : Except Ending LogStyle := do
  logStyle line (← Input.settings s [])

/-- A whole command line.  The settings and the log level are looked at before the arguments of the
command.  There is no log style when nothing can have been logged. -/
def run (s : Surroundings) (args : List String) : Transcript × Option LogStyle :=
  match CommandLine.read args with
  | .error refusal => (.silent (refusalEnding s refusal), none)
  | .ok line =>
    match configure s line with
    | .error ending => (.silent ending, none)
    | .ok style =>
      match Request.read s line.command line.args with
      | .error refusal => (.silent (refusalEnding s refusal), some style)
      | .ok request => (perform s request, some style)

/-- The lines of JSON that a command logs at a time. -/
def logLines (style : Option LogStyle) (time : String) (events : List LogEvent) :
    Except Failure (List String) :=
  match style with
  | some ⟨true, setup⟩ => setup.lines time events
  | _ => .ok []

end Rollout.Command
