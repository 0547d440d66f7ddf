import TapeMachine.Cli.Journal
import TapeMachine.Diagnostic

/-! A whole command, from its arguments and surroundings to what it prints and the code it exits
with. `run` goes through four stages: the configuration, the source, the matching of the brackets, the
execution. The first that fails ends it with a message and nothing on standard output. Time enters
as the number of steps that a run gets through before its timeout. -/

namespace TapeMachine.Cli

structure Report where
  exitCode : UInt32
  stdout : List UInt8 := []
  stderr : String := ""
  /-- The run that the command came to, if it got so far. -/
  execution? : Option (Run Device) := none

structure Invocation where
  /-- The name under which the program was called. -/
  calledAs : String
  arguments : List String
  surroundings : Surroundings

def name : String := "tapevm"

def version : String := "0.1.0"

def usage : String :=
  "Usage: tapevm run [-f PATH] [--timeout MS] [--max-steps N] [--eof zero|unchanged|error]\n"
    ++ "                  [--cell-width byte|unbounded] [--] [CODE]...\n"
    ++ "       tapevm check [-f PATH] [--] [CODE]...\n"
    ++ "       tapevm --version\n"

/-- The last name on a path without what follows its last dot, unless the dot comes first. -/
def stem? (path : String) : Option String :=
  match ((path.toList.splitOn '/').filter (fun part => !part.isEmpty && part != ['.'])).getLast? with
  | none => none
  | some ['.', '.'] => none
  | some last =>
    let (extension, rest) := last.reverse.span (fun c => c != '.')
    match rest with
    | _ :: start => some (String.ofList (if start.isEmpty then last else start.reverse))
    | [] => some (String.ofList extension.reverse)

namespace Invocation

def reporter (i : Invocation) : String := i.surroundings.paint ((stem? i.calledAs).getD name)

/-- The events that are to be written: none unless a filter asks for them. -/
def filter (i : Invocation) : Log.Filter :=
  match i.surroundings.env "TAPEVM_LOG" with
  | some text => Log.Filter.ofText text
  | none => []

def told (i : Invocation) (log : List Log.Event) : String := i.filter.render i.surroundings.layout log

def failure (i : Invocation) (log : List Log.Event) (message : String) : Report where
  exitCode := 1
  stderr := i.told log ++ Diagnostic.line (some i.reporter) message

def faultReport (i : Invocation) (log : List Log.Event) (source : String) (f : Fault) : Report where
  exitCode := 1
  stderr := i.told log ++ Diagnostic.fault (some i.reporter) source f

end Invocation

/-- The program text, or why it cannot be had, and what is then left of standard input. -/
def Source.load (s : Surroundings) : Source → Except String String × Stdin
  | .file path =>
    ((s.file path).text.mapError (fun reason => "failed to read " ++ path ++ " as UTF-8: " ++ reason), s.stdin)
  | .code text => (.ok text, s.stdin)
  | .stdin =>
    let (text, rest) := s.stdin.readToEnd
    (text.mapError (fun reason => "failed reading program from stdin: " ++ reason), rest)

def consultedVariables : List String :=
  ["TAPEVM_CONFIG", "XDG_CONFIG_HOME", "HOME", "TAPEVM_TIMEOUT_MS", "TAPEVM_MAX_STEPS", "TAPEVM_LOG"]

def Source.paths : Source → List String
  | .file path => [path]
  | .code _ => []
  | .stdin => []

def Command.paths (p : Platform) (env : String → Option String) : Command → List String
  | .run o => (env "TAPEVM_CONFIG").toList ++ (Config.defaultPath? p env).toList ++ o.source.paths
  | .check source => source.paths
  | .version => []
  | .help => []

/-- Everything decided before the first instruction. -/
structure Job where
  source : String
  machine : Machine
  settings : Settings
  /-- What loading the text has left of standard input. -/
  input : Stdin
  /-- The events so far. -/
  log : List Log.Event

namespace Job

def control (j : Job) : Control Device := { limit := j.settings.maxSteps }

def run (j : Job) (fuel : Nat) : Run Device :=
  j.machine.run j.settings.mode Device.hooks j.control fuel j.input.device

def events (j : Job) (filter : Log.Filter) (fuel : Nat) (r : Run Device) : List Log.Event :=
  let steps :=
    if Journal.admitsSteps filter then
      Journal.steps j.machine.program
        (j.machine.visits j.settings.mode Device.hooks j.control fuel j.input.device)
    else []
  Journal.started j.machine.program j.settings.mode :: steps ++ Journal.ended r

end Job

namespace Invocation

/-- The first three stages of `run`, or the report of the one that failed. -/
def prepare (i : Invocation) (o : RunOptions) : Except Report Job :=
  match Config.load i.surroundings with
  | .error fault => .error (i.failure [] (fault.message i.surroundings.reader))
  | .ok (config, origin) =>
    let settings := Settings.resolve o i.surroundings.env config
    let log := Journal.loaded config origin ++ [Journal.resolved settings]
    match o.source.load i.surroundings with
    | (.error message, _) => .error (i.failure log message)
    | (.ok source, input) =>
      match Machine.ofSource source with
      | .error fault => .error (i.faultReport log source fault)
      | .ok machine =>
        .ok {
          source, machine, settings, input
          log := log ++ [Journal.matched machine.program machine.jumps] }

/-- What is said on standard error about the way a run ended. Stops that are no fault of the program
are reported without a name in front. -/
def verdict (i : Invocation) (source : String) (f : Fault) : String :=
  match f with
  | .stepLimitExceeded _ => Diagnostic.line none f.message
  | .cancelled => Diagnostic.line none f.message
  | _ => Diagnostic.fault (some i.reporter) source f

def timeoutMessage (ms : Nat) : String :=
  Diagnostic.line none ("Execution aborted: wall-clock timeout exceeded (" ++ toString ms ++ " ms)")

/-- The report of a finished job. A run still going is one that its timeout has ended. -/
def conclude (i : Invocation) (j : Job) (events : List Log.Event) (r : Run Device) : Option Report :=
  let told := i.told (j.log ++ events)
  let stdout := r.world.written.toList
  match r.ending, j.settings.timeoutMs with
  | .halted, _ => some ⟨0, stdout, told, some r⟩
  | .stopped fault, _ => some ⟨1, stdout, told ++ i.verdict j.source fault, some r⟩
  | .unfinished, some ms => some ⟨1, stdout, told ++ timeoutMessage ms, some r⟩
  | .unfinished, none => none

/-- How fast a program runs, and how long the user waits for one without a timeout. -/
structure Clock where
  stepsPerMs : Nat
  patience : Nat

/-- A run is looked at every so many milliseconds, so no timeout takes effect sooner. -/
def pollMs : Nat := 20

def Clock.fuel (c : Clock) : Option Nat → Nat
  | some ms => c.stepsPerMs * max ms pollMs
  | none => c.patience

/-- The `run` command. There is no report when the user lost patience. -/
def run (i : Invocation) (o : RunOptions) (clock : Clock) : Option Report :=
  match i.prepare o with
  | .error report => some report
  | .ok job =>
    let fuel := clock.fuel job.settings.timeoutMs
    let r := job.run fuel
    i.conclude job (job.events i.filter fuel r) r

/-- The `check` command: counts instructions and loops, and executes nothing. -/
def check (i : Invocation) (source : Source) : Report :=
  match (source.load i.surroundings).1 with
  | .error message => i.failure [] message
  | .ok text =>
    let program := Program.ofSource text
    match JumpTable.build program with
    | .error fault => i.faultReport [] text fault
    | .ok jumps =>
      let line := "ok: " ++ toString program.size ++ " instructions, " ++ toString jumps.loopCount ++ " loops\n"
      { exitCode := 0, stdout := line.toUTF8.toList, stderr := i.told [Journal.matched program jumps] }

def execute (i : Invocation) (clock : Clock) : Option Report :=
  match Command.ofArguments i.arguments with
  | .error fault => some { exitCode := 2, stderr := "error: " ++ fault.message ++ "\n\n" ++ usage }
  | .ok .version => some { exitCode := 0, stdout := (name ++ " " ++ version ++ "\n").toUTF8.toList }
  | .ok .help => some { exitCode := 0, stdout := usage.toUTF8.toList }
  | .ok (.check source) => some (i.check source)
  | .ok (.run o) => i.run o clock

end Invocation

end TapeMachine.Cli
