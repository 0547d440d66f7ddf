import TapeMachine.Cli.Invocation

/-! The program itself: it gathers what a command may look at, and runs a job with bytes passed on as
they come and events told as they happen. -/

namespace TapeMachine.Cli.Console

/-- The number the system gives an error. Some come as the negative of that number. -/
def systemNumber (code : UInt32) : Nat := if code < 0x80000000 then code.toNat else (0 - code).toNat

def systemError? : IO.Error → Option (Nat × String)
  | .noFileOrDirectory _ code details => some (systemNumber code, details)
  | .alreadyExists _ code details => some (systemNumber code, details)
  | .permissionDenied _ code details => some (systemNumber code, details)
  | .inappropriateType _ code details => some (systemNumber code, details)
  | .invalidArgument _ code details => some (systemNumber code, details)
  | .noSuchThing _ code details => some (systemNumber code, details)
  | .resourceExhausted _ code details => some (systemNumber code, details)
  | .resourceVanished code details => some (systemNumber code, details)
  | .otherError code details => some (systemNumber code, details)
  | _ => none

/-- The reason for a failed operation, with the number of the error. -/
def reasonOf (e : IO.Error) : String :=
  match systemError? e with
  | some (number, details) =>
    let words :=
      match number with
      | 2 => "No such file or directory"
      | 13 => "Permission denied"
      | 20 => "Not a directory"
      | 21 => "Is a directory"
      | 32 => "Broken pipe"
      | 36 => "File name too long"
      | 40 => "Too many levels of symbolic links"
      | _ => details
    words ++ " (os error " ++ toString number ++ ")"
  | none => toString e

/-- The errors that say that a path leads nowhere. -/
def leadsNowhere (e : IO.Error) : Bool :=
  match systemError? e with
  | some (number, _) => [2, 20, 36, 40].contains number
  | none => false

def fileState (path : String) : IO FileState := do
  try
    return .holds (← IO.FS.readBinFile path)
  catch e =>
    if leadsNowhere e then return .absent (reasonOf e) else return .unreadable (reasonOf e)

partial def readAll (input : IO.FS.Stream) (taken : ByteArray) : IO ByteArray := do
  let more ← input.read 65536
  if more.isEmpty then return taken else readAll input (taken ++ more)

def readStdin : IO Stdin := do
  try
    return .bytes (← readAll (← IO.getStdin) .empty)
  catch e => return .unreadable (reasonOf e)

def nextReading : IO Reading := do
  try
    let bytes ← (← IO.getStdin).read 1
    match bytes.toList with
    | [] => return .endOfInput
    | b :: _ => return .byte b
  catch e => return .failure (reasonOf e)

def tell (filter : Log.Filter) (events : List Log.Event) : IO Unit := do
  let text := filter.render (fun _ e => e.line) events
  unless text.isEmpty do
    let out ← IO.getStderr
    out.putStr text
    out.flush

def handOver (bytes : Array UInt8) : IO (Option String) := do
  if bytes.isEmpty then return none
  try
    let out ← IO.getStdout
    out.write (ByteArray.mk bytes)
    out.flush
    return none
  catch e => return some (reasonOf e)

/-- Takes one step after the other until the run ends or its time is over. -/
partial def drive (j : Job) (filter : Log.Filter) (drained : Bool) (deadline : Option Nat)
    (status : Status) (steps : Nat) (s : State) : IO (Run Device) := do
  let instruction := j.machine.program.get? s.cursor.position
  if status = .running && Journal.admitsSteps filter then
    tell filter (Journal.steps j.machine.program [s])
  let late ← match deadline with
    | some moment => if steps % 4096 = 0 then pure (decide (moment ≤ (← IO.monoMsNow))) else pure false
    | none => pure false
  if late then return ⟨.unfinished, steps, s, {}⟩
  let reply ← if instruction = some .input && status = .running && !drained then nextReading
    else pure .endOfInput
  let engine := j.machine.engine Device.hooks j.settings.mode.eof
  let r := engine.run j.control 1 status steps s { replies := [reply] }
  match ← handOver r.world.written with
  | some reason => return ⟨.stopped (.io s.cursor.position reason), steps, s, {}⟩
  | none =>
    match r.ending with
    | .unfinished => drive j filter drained deadline .running r.steps r.state
    | _ => return { r with world := {} }

def print (r : Report) : IO UInt32 := do
  let out ← IO.getStdout
  out.write (ByteArray.mk r.stdout.toArray)
  out.flush
  let err ← IO.getStderr
  err.putStr r.stderr
  err.flush
  return r.exitCode

def run (i : Invocation) (o : RunOptions) : IO UInt32 := do
  match i.prepare o with
  | .error report => print report
  | .ok job =>
    let filter := i.filter
    tell filter (job.log ++ [Journal.started job.machine.program job.settings.mode])
    let start ← IO.monoMsNow
    let deadline := job.settings.timeoutMs.map (fun ms => start + max ms Invocation.pollMs)
    let r ← drive job filter (decide (o.source = .stdin)) deadline (Status.initial job.machine.program) 0
      { tape := { width := job.settings.mode.width } }
    match i.conclude { job with log := [] } (Journal.ended r) r with
    | some report => print report
    | none => return 1

end TapeMachine.Cli.Console

open TapeMachine TapeMachine.Cli in
/-- Standard input is read beforehand only when it holds the program text. -/
def main (arguments : List String) : IO UInt32 := do
  let calledAs := (← IO.appPath).toString
  let env ← consultedVariables.mapM (fun name => do return (name, ← IO.getEnv name))
  let lookup (name : String) : Option String := (env.lookup name).bind id
  let command := Command.ofArguments arguments
  let paths := match command with
    | .ok command => command.paths {} lookup
    | .error _ => []
  let files ← paths.mapM (fun path => do return (path, ← Console.fileState path))
  let readsText : Bool := match command with
    | .ok (.run o) => decide (o.source = .stdin)
    | .ok (.check source) => decide (source = .stdin)
    | _ => false
  let stdin ← bif readsText then Console.readStdin else pure (.bytes .empty)
  let file (path : String) : FileState := (files.lookup path).getD (.absent "")
  let i : Invocation :=
    { calledAs, arguments, surroundings := { env := lookup, file, stdin } }
  match command with
  | .ok (.run o) => Console.run i o
  | _ =>
    match i.execute ⟨0, 0⟩ with
    | some report => Console.print report
    | none => return 1
