import Snowflake.Clock.Manual
import Snowflake.CommandLine.Inspect
import Snowflake.CommandLine.Print
import Std.Time.DateTime.Timestamp

/-!
# The program

`main` reads the arguments and the environment, carries out the job that they ask for
and prints. The clock is read before every id and stands still during the call; when the
call would wait, the program sleeps and calls again.
-/

namespace Snowflake.CommandLine

/-- The time in milliseconds since 1970; an earlier time reads as zero. -/
def presentMillis : IO Nat :=
  return (← Std.Time.Timestamp.now).toMillisecondsSinceUnixEpoch.val.toNat

/-- The environment, as far as the program reads it. -/
def presentEnvironment : IO Environment := do
  let names := Command.generate.options.filterMap OptionName.envName?
  let values ← names.mapM fun name => return (name, ← IO.getEnv name)
  return fun name => (values.lookup name).join

/-- A node id for a program that has none set. -/
def drawNodeId : IO (Fin (maxNodeId + 1)) :=
  return Fin.ofNat _ (← IO.rand 0 maxNodeId)

/-- The registry that the environment asks for. -/
def presentRegistry : IO Registry := do
  let drawn ← drawNodeId
  match Registry.ofSettings (Settings.ofEnvironment (← presentEnvironment)) drawn with
  | .ok r => return r
  | .error _ => return Registry.ofDrawn drawn

def complain (message : String) (causes : List String) : IO UInt32 := do
  IO.eprintln s!"Error: {message}"
  unless causes.isEmpty do
    IO.eprintln "\nCaused by:"
    causes.forM fun cause => IO.eprintln s!"    {cause}"
  return 1

/-- Prints so many more ids. A long pause is slept through a second at a time. -/
partial def printIds (job : GenerateJob) (left : Nat) (g : Generator) : IO UInt32 := do
  match left with
  | 0 => return 0
  | left + 1 =>
    let clock := ManualClock.steady (← presentMillis)
    let call := Generator.generateText ManualClock.clock job.format job.encoding 0 g clock
    match call.outcome with
    | .ok issue =>
      IO.println issue.text
      printIds job left call.generator
    | .error (.refused e) => complain e.message []
    | .error (.interrupted pause) =>
      IO.sleep (min pause 1000).toUInt32
      printIds job (left + 1) g

def usage : String :=
  "Usage: snowflake <COMMAND>\n\n"
    ++ "Commands:\n"
    ++ "  generate  Print fresh ids, one on a line\n"
    ++ "  inspect   Print the timestamp, node and sequence of ids\n\n"
    ++ "Options:\n"
    ++ "  --format <FORMAT>      tiny, mini, 48, 64 or 128\n"
    ++ "  --encoding <ENCODING>  raw, hex or ascii\n"
    ++ "  -n, --count <COUNT>    How many ids to print (generate)\n"
    ++ "  --node-id <NODE_ID>    Which node to generate for (generate)\n"
    ++ "  -h, --help             Print help\n"
    ++ "  -V, --version          Print version"

def perform : Job → IO UInt32
  | .generate job => do
    match (← presentRegistry).find job.choice with
    | .error e => complain e.message []
    | .ok seated => printIds job job.count seated.generator
  | .inspect job => do
    IO.print job.report.text
    match job.report.failure with
    | none => return 0
    | some e => complain e.message e.causes

/-- The program on its arguments; the result is the exit code. -/
def runProgram (args : List String) : IO UInt32 := do
  match Request.ofArguments (← presentEnvironment) args with
  | .error .helpAsked =>
    IO.println usage
    return 0
  | .error .versionAsked =>
    IO.println "snowflake 0.1.0"
    return 0
  | .error e =>
    IO.eprintln s!"error: {e.message}\n\n{usage}"
    return 2
  | .ok request =>
    match Job.ofRequest request with
    | .error e => complain e.message []
    | .ok job => perform job

end Snowflake.CommandLine

def main (args : List String) : IO UInt32 := Snowflake.CommandLine.runProgram args
