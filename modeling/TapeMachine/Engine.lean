import TapeMachine.Cursor
import TapeMachine.Hooks
import TapeMachine.JumpTable
import TapeMachine.Tape

/-! One step of a program. The engine is what stays fixed while a program runs: the program, a jump
table, the hooks and the policy for the end of input. A step executes the instruction under the
cursor and moves the cursor past it, also after a jump, so a loop that is entered or repeated goes on
behind its opening bracket without testing it again. A step that fails leaves what its instruction had
made of tape and cursor by then. -/

namespace TapeMachine

inductive Status where
  | running
  | halted
deriving DecidableEq, Repr

/-- An empty program has halted before it starts. -/
def Status.initial (p : Program) : Status := if p.isEmpty then .halted else .running

structure State where
  tape : Tape := {}
  cursor : Cursor := {}

/-- What something comes to, with the state and the world that it leaves, also when it fails. -/
structure Outcome (World : Type) (α : Type := Status) where
  result : Except Fault α
  state : State
  world : World

structure Engine (World : Type) where
  program : Program
  jumps : JumpTable
  hooks : Hooks World
  eof : EofPolicy := .zero

namespace Engine

variable {World : Type}

/-- Moves the cursor to the partner of its bracket. -/
def jump (e : Engine World) (bracket : Bracket) (s : State) (w : World) : Outcome World Unit :=
  match e.jumps.target? s.cursor.position with
  | some target => ⟨.ok (), { s with cursor := s.cursor.jumpTo target }, w⟩
  | none => ⟨.error (.unmatchedBracket s.cursor.position bracket), s, w⟩

/-- The effect of an input instruction that met the end of the input. -/
def endOfInput (e : Engine World) (s : State) (w : World) : Outcome World Unit :=
  match e.eof with
  | .zero => ⟨.ok (), { s with tape := s.tape.write 0 }, w⟩
  | .unchanged => ⟨.ok (), s, w⟩
  | .error => ⟨.error (.inputExhausted s.cursor.position), s, w⟩

/-- Executes one instruction, without moving on to the next. -/
def perform (e : Engine World) (i : Instruction) (s : State) (w : World) : Outcome World Unit :=
  match i with
  | .right => ⟨.ok (), { s with tape := s.tape.move 1 }, w⟩
  | .left => ⟨.ok (), { s with tape := s.tape.move (-1) }, w⟩
  | .increment => ⟨.ok (), { s with tape := s.tape.adjust 1 }, w⟩
  | .decrement => ⟨.ok (), { s with tape := s.tape.adjust (-1) }, w⟩
  | .output =>
    match e.hooks.write (Tape.outputByte s.tape.read) w with
    | (.accepted, w) => ⟨.ok (), s, w⟩
    | (.failure reason, w) => ⟨.error (.io s.cursor.position reason), s, w⟩
  | .input =>
    match e.hooks.read w with
    | (.byte b, w) => ⟨.ok (), { s with tape := s.tape.write (Int64.ofNat b.toNat) }, w⟩
    | (.endOfInput, w) => e.endOfInput s w
    | (.failure reason, w) => ⟨.error (.io s.cursor.position reason), s, w⟩
  | .loopStart => if s.tape.read = 0 then e.jump .opening s w else ⟨.ok (), s, w⟩
  | .loopEnd => if s.tape.read = 0 then ⟨.ok (), s, w⟩ else e.jump .closing s w

def step (e : Engine World) (s : State) (w : World) : Outcome World :=
  match e.program.get? s.cursor.position with
  | none => ⟨.ok .halted, s, w⟩
  | some i =>
    match e.perform i s w with
    | ⟨.error fault, s, w⟩ => ⟨.error fault, s, w⟩
    | ⟨.ok (), s, w⟩ =>
      let cursor := s.cursor.advance
      ⟨.ok (if cursor.isPast e.program.size then .halted else .running), { s with cursor := cursor }, w⟩

/-- The outcomes of so many steps in a row, going on after a halt or a fault. -/
def drive (e : Engine World) : Nat → State → World → List (Outcome World)
  | 0, _, _ => []
  | n + 1, s, w =>
    let o := e.step s w
    o :: e.drive n o.state o.world

end Engine

end TapeMachine
