import TapeMachine.Engine

/-! Runs of a program from a fresh tape. A machine is a program together with the table of its own
brackets, so it cannot hold a malformed one. A run may be bounded by a step limit and watched for a
request to stop; both are looked at between two steps, the request first, and never after the last
one. Since a program may go on for ever, a run is given a number of steps to get through and says so
when it was still going. -/

namespace TapeMachine

structure Machine where
  program : Program
  jumps : JumpTable
  built : JumpTable.build program = .ok jumps

namespace Machine

def ofProgram (p : Program) : Except Fault Machine :=
  match h : JumpTable.build p with
  | .ok jumps => .ok ⟨p, jumps, h⟩
  | .error fault => .error fault

def ofSource (source : String) : Except Fault Machine := ofProgram (Program.ofSource source)

end Machine

/-- When a run has to stop although its program goes on. -/
structure Control (World : Type) where
  limit : Option Nat := none
  cancelled : World → Bool := fun _ => false

/-- The reason not to take the next step, if there is one. -/
def Control.refuse? {World : Type} (c : Control World) (steps : Nat) (w : World) : Option Fault :=
  if c.cancelled w then some .cancelled
  else
    match c.limit with
    | some limit => if limit ≤ steps then some (.stepLimitExceeded limit) else none
    | none => none

inductive Ending where
  | halted
  | stopped (fault : Fault)
  | unfinished
deriving DecidableEq, Repr

structure Run (World : Type) where
  ending : Ending
  steps : Nat
  state : State
  world : World

namespace Engine

variable {World : Type}

/-- Takes up to `fuel` more steps under a control, after `steps` steps. -/
def run (e : Engine World) (c : Control World) (fuel : Nat) (status : Status) (steps : Nat)
    (s : State) (w : World) : Run World :=
  match status with
  | .halted => ⟨.halted, steps, s, w⟩
  | .running =>
    match c.refuse? steps w with
    | some fault => ⟨.stopped fault, steps, s, w⟩
    | none =>
      match fuel with
      | 0 => ⟨.unfinished, steps, s, w⟩
      | fuel + 1 =>
        match e.step s w with
        | ⟨.error fault, s, w⟩ => ⟨.stopped fault, steps, s, w⟩
        | ⟨.ok status, s, w⟩ => e.run c fuel status (steps + 1) s w

/-- The states in which such a run executes an instruction, in order. The last instruction is listed
also when it fails. -/
def visits (e : Engine World) (c : Control World) (fuel : Nat) (status : Status) (steps : Nat)
    (s : State) (w : World) : List State :=
  match status with
  | .halted => []
  | .running =>
    match c.refuse? steps w with
    | some _ => []
    | none =>
      match fuel with
      | 0 => []
      | fuel + 1 =>
        s ::
          match e.step s w with
          | ⟨.error _, _, _⟩ => []
          | ⟨.ok status, s, w⟩ => e.visits c fuel status (steps + 1) s w

end Engine

/-- How cells wrap round and what the end of the input stores. -/
structure Mode where
  width : CellWidth := .byte
  eof : EofPolicy := .zero
deriving DecidableEq, Repr

namespace Machine

variable {World : Type}

def engine (m : Machine) (hooks : Hooks World) (eof : EofPolicy) : Engine World :=
  ⟨m.program, m.jumps, hooks, eof⟩

/-- A run from a fresh tape and the first instruction. -/
def run (m : Machine) (mode : Mode) (hooks : Hooks World) (c : Control World) (fuel : Nat)
    (w : World) : Run World :=
  (m.engine hooks mode.eof).run c fuel (Status.initial m.program) 0 { tape := { width := mode.width } } w

def visits (m : Machine) (mode : Mode) (hooks : Hooks World) (c : Control World) (fuel : Nat)
    (w : World) : List State :=
  (m.engine hooks mode.eof).visits c fuel (Status.initial m.program) 0 { tape := { width := mode.width } } w

end Machine

end TapeMachine
