/-
What a command line asks for.

* `CommandLine.read` — the command and its own arguments, after the options for all commands;
* `Request.read` — what a command is to do, and `Request.path?`, the file that it reads.
-/
import Rollout.CanonicalKey
import Rollout.Coercion
import Rollout.Command.Arguments
import Rollout.Failure

namespace Rollout

/-- The variables of an environment that is given as a text, in which each variable ends in a null
character. -/
def environmentOf (text : String) : List (String × String) :=
  (text.toList.splitOn '\x00').filterMap fun entry =>
    match splitEquals entry with
    | (name, some value) => some (.ofList name, .ofList value)
    | (_, none) => none

/-- Where a command runs. -/
structure Surroundings where
  /-- The environment variables. -/
  environment : List (String × String)
  /-- The octets of the file of variables in the working directory. -/
  dotenv : Option (List UInt8)
  /-- The texts of the files that can be read. -/
  file : String → Option String
  /-- What the validation of records adds to a failure, after the line that counts the faults. -/
  explain : Failure → String
  /-- Whether the shell has the completion of commands that an option asks for. -/
  completes : String → Bool

/-- Why a command line is not carried out. -/
inductive Refusal
  /-- It asks for help. -/
  | help
  /-- It asks for the completion of commands by the shell, with an option. -/
  | completion (option : String)
  /-- It cannot be understood. -/
  | misuse
deriving DecidableEq, Repr

/-- The commands. -/
inductive CommandName
  | aliases | normalize | evaluate
deriving DecidableEq, Repr

def CommandName.ofName? : String → Option CommandName
  | "aliases" => some .aliases
  | "normalize" => some .normalize
  | "evaluate" => some .evaluate
  | _ => none

/-- The option that asks for help. -/
def helpOption : CommandOption := ⟨"--help", none, false⟩

/-- The option that asks for JSON. -/
def jsonOption : CommandOption := ⟨"--json", none, false⟩

/-- The options that ask for the completion of commands by the shell. -/
def completionOptions : List CommandOption := [
  ⟨"--install-completion", none, false⟩, ⟨"--show-completion", none, false⟩]

/-- The first option among the arguments that asks for completion. -/
def completion? (a : Arguments) : Option String :=
  (a.options.map Prod.fst).find? ((completionOptions.map (·.name)).contains ·)

/-- Arguments read with the options that are known, and `--help`. -/
def readArguments (known : List CommandOption) (mixed : Bool) (args : List String) :
    Except Refusal Arguments :=
  match Arguments.read (helpOption :: known) mixed args with
  | none => .error .misuse
  | some a => if a.has helpOption.name then .error .help else .ok a

/-- A command line: the log level, the command, and the command's own arguments. -/
structure CommandLine where
  logLevel : Option String
  command : CommandName
  args : List String
deriving DecidableEq, Repr

/-- Reads a command line.  Completion is looked after before there is any command. -/
def CommandLine.read (args : List String) : Except Refusal CommandLine := do
  let a ← readArguments (⟨"--log-level", none, true⟩ :: completionOptions) false args
  match completion? a, a.positional with
  | some option, _ => .error (.completion option)
  | none, [] => .error .misuse
  | none, name :: rest =>
    match CommandName.ofName? name with
    | some command => .ok ⟨a.value? "--log-level", command, rest⟩
    | none => .error .misuse

/-- What an evaluation needs. -/
structure EvaluationRequest where
  flag : String
  /-- The text of the file of variants. -/
  variants : String
  context : String
  type : FlagType
  default : Option String
  deploymentKey : String
  json : Bool
deriving Repr

/-- What a command is to do. -/
inductive Request
  | aliases (key : String) (json : Bool)
  | normalize (context : String) (shape : Shape) (json : Bool)
  | evaluate (r : EvaluationRequest)
deriving Repr

namespace Request

/-- A value that must be there. -/
def require {α : Type} : Option α → Except Refusal α
  | some a => .ok a
  | none => .error .misuse

/-- The only argument that is no option. -/
def single (a : Arguments) : Except Refusal String :=
  match a.positional with
  | [arg] => .ok arg
  | _ => .error .misuse

/-- A value of an option that must be one of a closed set of names. -/
def choice {α : Type} (ofName? : String → Option α) (default : α) :
    Option String → Except Refusal α
  | none => .ok default
  | some name => require (ofName? name)

def readAliases (args : List String) : Except Refusal Request := do
  let a ← readArguments [jsonOption] true args
  return .aliases (← single a) (a.has jsonOption.name)

def normalizeOptions : List CommandOption := [
  jsonOption, ⟨"--context", some 'c', true⟩, ⟨"--shape", none, true⟩]

def readNormalize (args : List String) : Except Refusal Request := do
  let a ← readArguments normalizeOptions true args
  let context ← require (a.value? "--context")
  let shape ← choice Shape.ofName? .subject (a.value? "--shape")
  if a.positional.isEmpty then return .normalize context shape (a.has jsonOption.name)
  else .error .misuse

/-- The variable that may hold the deployment key. -/
def deploymentVariable : String := "FLAGBRIDGE_DEPLOYMENT_KEY"

/-- The deployment key: from its option, or from its variable if that is not empty. -/
def deploymentKey (s : Surroundings) (option : Option String) : String :=
  match option, s.environment.lookup deploymentVariable with
  | some key, _ => key
  | none, some key => if key = "" then "local" else key
  | none, none => "local"

def evaluateOptions : List CommandOption := [
  jsonOption, ⟨"--variants", some 'v', true⟩, ⟨"--context", some 'c', true⟩,
  ⟨"--type", some 't', true⟩, ⟨"--default", some 'd', true⟩, ⟨"--deployment-key", none, true⟩]

/-- Reads the arguments of `evaluate`.  The file of variants must be there. -/
def readEvaluate (s : Surroundings) (args : List String) : Except Refusal Request := do
  let a ← readArguments evaluateOptions true args
  let flag ← single a
  let path ← require (a.value? "--variants")
  let variants ← require (s.file path)
  let type ← choice FlagType.ofName? .boolean (a.value? "--type")
  return .evaluate ⟨flag, variants, (a.value? "--context").getD "\x7b\x7d", type,
    a.value? "--default", deploymentKey s (a.value? "--deployment-key"), a.has jsonOption.name⟩

/-- The path of the file that a command line reads. -/
def path? (line : CommandLine) : Option String :=
  match line.command with
  | .evaluate =>
    (readArguments evaluateOptions true line.args).toOption.bind (·.value? "--variants")
  | _ => none

/-- What a command is to do with its arguments. -/
def read (s : Surroundings) : CommandName → List String → Except Refusal Request
  | .aliases, args => readAliases args
  | .normalize, args => readNormalize args
  | .evaluate, args => readEvaluate s args

end Request

end Rollout
