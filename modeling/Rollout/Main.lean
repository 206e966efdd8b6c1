/-
The command line program.

Everything that it decides is decided by `Command.run`; what stands here reads the surroundings and
prints what comes of it.
-/
import Rollout.Command
import Rollout.Log.Timestamp
import Std.Time.DateTime.Timestamp

namespace Rollout

/-- The parameters of handlers are not looked into. -/
instance : Markup.Handlers := ⟨fun _ => true⟩

/-- How the program is used. -/
def usage : List String := [
  "usage: rollout [--log-level LEVEL] COMMAND",
  "",
  "  aliases KEY [--json]",
  "      list the spellings that are recognized for a name",
  "  normalize -c CONTEXT [--shape subject|occurrence] [--json]",
  "      show how a context is sorted into fields",
  "  evaluate FLAG -v FILE [-c CONTEXT] [-t boolean|string|integer|float|object]",
  "      [-d DEFAULT] [--deployment-key KEY] [--json]",
  "      evaluate a flag against variants from a file"]

/-- The text of a file, if it can be read. -/
def readText? (path : String) : IO (Option String) := do
  try
    return some (← IO.FS.readFile path)
  catch _ =>
    return none

/-- The octets of a file, if it can be read. -/
def readOctets? (path : String) : IO (Option (List UInt8)) := do
  try
    return some (← IO.FS.readBinFile path).toList
  catch _ =>
    return none

/-- The surroundings of the process, with the file that a command line reads. -/
def surroundings (args : List String) : IO Surroundings := do
  let environment := environmentOf ((← readText? "/proc/self/environ").getD "")
  let dotenv ← readOctets? ".env"
  match (CommandLine.read args).toOption.bind Request.path? with
  | none => return ⟨environment, dotenv, fun _ => none, fun _ => "", fun _ => false⟩
  | some path =>
    let text ← readText? path
    return ⟨environment, dotenv, fun other => if other = path then text else none, fun _ => "",
      fun _ => false⟩

/-- The present time as it is logged. -/
def now : IO String := do
  let time ← Std.Time.Timestamp.now
  let nanoseconds := time.toNanosecondsSinceUnixEpoch.val.toNat
  return timestamp (nanoseconds / 1000000000) (nanoseconds / 1000 % 1000000)

/-- The text of a failure as it is printed. -/
def printed (failure : Failure) : String :=
  failure.message.toOption.getD "<exception str() failed>"

/-- Prints what a command logged. -/
def printLog (style : Option Command.LogStyle) (events : List LogEvent) : IO Unit := do
  match style with
  | some ⟨false, setup⟩ => for line in setup.plainLines events do IO.eprintln line
  | _ =>
    match Command.logLines style (← now) events with
    | .ok lines => for line in lines do IO.eprintln line
    | .error failure => IO.eprintln (printed failure)

/-- Prints what a command printed. -/
def printOutput : Printout → IO Unit
  | .text s => IO.print s
  | .table t => do for line in t.draw do IO.println line

/-- Says why a command did not do what it was asked to do. -/
def printEnding : Ending → IO Unit
  | .finished | .negative => return
  | .helped => do for line in usage do IO.println line
  | .misused => do for line in usage do IO.eprintln line
  | .refused message => IO.eprintln ("Error: " ++ message)
  | .crashed failure => IO.eprintln (printed failure)

end Rollout

/-- Carries out a command line. -/
def main (args : List String) : IO UInt32 := do
  let (transcript, style) := Rollout.Command.run (← Rollout.surroundings args) args
  Rollout.printLog style transcript.events
  Rollout.printOutput transcript.printout
  Rollout.printEnding transcript.ending
  return transcript.ending.status.toUInt32
