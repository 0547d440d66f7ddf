import TapeMachine.Cli.Settings
import TapeMachine.Config.File
import TapeMachine.Log.Filter
import TapeMachine.Log.Record

/-! The events that a command goes through, from its configuration to the end of its run. -/

namespace TapeMachine.Cli.Journal

open Log

def width : CellWidth → String
  | .byte => "Byte"
  | .unbounded => "Unbounded"

def eof : EofPolicy → String
  | .zero => "Zero"
  | .unchanged => "Unchanged"
  | .error => "Error"

def config (c : Config) : String :=
  record "Config"
    [("machine", record "MachineConfig"
       [("cell_width", width c.machine.width), ("eof", eof c.machine.eof)]),
     ("limits", record "Limits"
       [("timeout_ms", optional (fun n => toString n) c.limits.timeoutMs),
        ("max_steps", optional (fun n => toString n) c.limits.maxSteps)])]

def settings (s : Settings) : String :=
  record "Settings"
    [("timeout", optional duration s.timeoutMs),
     ("max_steps", optional (fun n => toString n) s.maxSteps),
     ("eof", eof s.mode.eof), ("cell_width", width s.mode.width)]

/-- The configuration is there. -/
def loaded (c : Config) : Config.Origin → List Event
  | .file path => [⟨.debug, .config, "loaded config", [("path", path), ("config", config c)]⟩]
  | .missing path => [⟨.debug, .config, "no config file, using defaults", [("path", path)]⟩]
  | .none => []

def resolved (s : Settings) : Event :=
  ⟨.debug, .command, "resolved run settings", [("settings", settings s)]⟩

/-- The brackets of a program are matched. -/
def matched (p : Program) (t : JumpTable) : Event :=
  ⟨.debug, .jumpTable, "built jump table",
    [("instructions", toString p.size), ("loops", toString t.loopCount)]⟩

def started (p : Program) (m : Mode) : Event :=
  ⟨.debug, .machine, "run started",
    [("instructions", toString p.size), ("width", width m.width), ("eof", eof m.eof)]⟩

/-- An instruction is about to be executed. -/
def stepped (i : Instruction) (s : State) : Event :=
  ⟨.trace, .machine, "step",
    [("ip", toString s.cursor.position), ("op", i.symbol.toString),
     ("ptr", toString s.tape.pointer.toInt), ("cell", toString s.tape.read.toInt)]⟩

def steps (p : Program) (states : List State) : List Event :=
  states.filterMap (fun s => (p.get? s.cursor.position).map (fun i => stepped i s))

/-- Whether steps are written. A filter looks at the kind of an event only, which all steps share. -/
def admitsSteps (f : Filter) : Bool := f.admits (stepped .right {})

/-- A run is over. Nothing is told of one that ended in a fault of its own or in a timeout. -/
def ended {World : Type} (r : Run World) : List Event :=
  let steps := [("steps", toString r.steps)]
  match r.ending with
  | .halted =>
    let t := r.state.tape
    [⟨.debug, .machine, "run halted",
       steps ++ [("cells", toString t.touched), ("width", width t.width)]⟩,
     ⟨.debug, .command, "program halted", steps⟩]
  | .stopped (.stepLimitExceeded _) => [⟨.debug, .machine, "step limit reached", steps⟩]
  | .stopped .cancelled => [⟨.debug, .machine, "run cancelled", steps⟩]
  | _ => []

end TapeMachine.Cli.Journal
