import TapeMachine.Proofs.Step
import Mathlib.Data.ZMod.Basic

/-! The ideal machine. Its tape has a cell at every integer, and a cell holds any integer, or a residue
modulo 256 where cells are bytes, so nothing wraps round in 64 bits. In all else it does what the engine
does: it executes one instruction in a step, jumps as the engine jumps, and asks the same hooks. -/

namespace TapeMachine.Ideal

/-- What a cell holds. -/
def Cell : CellWidth → Type
  | .byte => ZMod 256
  | .unbounded => ℤ

instance (width : CellWidth) : CommRing (Cell width) :=
  match width with
  | .byte => inferInstanceAs (CommRing (ZMod 256))
  | .unbounded => inferInstanceAs (CommRing ℤ)

instance (width : CellWidth) : DecidableEq (Cell width) :=
  match width with
  | .byte => inferInstanceAs (DecidableEq (ZMod 256))
  | .unbounded => inferInstanceAs (DecidableEq ℤ)

variable {width : CellWidth} {World : Type}

/-- The number that a cell stands for. For a residue it lies between 0 and 255. -/
def Cell.value : {width : CellWidth} → Cell width → ℤ
  | .byte, c => (ZMod.val (n := 256) c : ℕ)
  | .unbounded, c => c

/-- The byte that a cell stands for on output: a residue itself, and the residue of an integer. -/
def Cell.toByte : {width : CellWidth} → Cell width → UInt8
  | .byte, c => UInt8.ofNat (ZMod.val (n := 256) c)
  | .unbounded, c => UInt8.ofNat (Int.emod c 256).toNat

structure Tape (width : CellWidth) where
  pointer : ℤ := 0
  cells : ℤ → Cell width := fun _ => 0

namespace Tape

def read (t : Tape width) : Cell width := t.cells t.pointer

def write (t : Tape width) (c : Cell width) : Tape width :=
  { t with cells := Function.update t.cells t.pointer c }

def adjust (t : Tape width) (delta : ℤ) : Tape width := t.write (t.read + delta)

def move (t : Tape width) (delta : ℤ) : Tape width := { t with pointer := t.pointer + delta }

end Tape

structure State (width : CellWidth) where
  tape : Tape width := {}
  position : ℕ := 0

def jump (e : Engine World) (bracket : Bracket) (s : State width) : Except Fault (State width) :=
  match e.jumps.target? s.position with
  | some target => .ok { s with position := target }
  | none => .error (.unmatchedBracket s.position bracket)

def endOfInput (e : Engine World) (s : State width) : Except Fault (State width) :=
  match e.eof with
  | .zero => .ok { s with tape := s.tape.write 0 }
  | .unchanged => .ok s
  | .error => .error (.inputExhausted s.position)

def perform (e : Engine World) (i : Instruction) (s : State width) (w : World) :
    Except Fault (State width) × World :=
  match i with
  | .right => (.ok { s with tape := s.tape.move 1 }, w)
  | .left => (.ok { s with tape := s.tape.move (-1) }, w)
  | .increment => (.ok { s with tape := s.tape.adjust 1 }, w)
  | .decrement => (.ok { s with tape := s.tape.adjust (-1) }, w)
  | .output =>
    match e.hooks.write s.tape.read.toByte w with
    | (.accepted, w) => (.ok s, w)
    | (.failure reason, w) => (.error (.io s.position reason), w)
  | .input =>
    match e.hooks.read w with
    | (.byte b, w) => (.ok { s with tape := s.tape.write b.toNat }, w)
    | (.endOfInput, w) => (endOfInput e s, w)
    | (.failure reason, w) => (.error (.io s.position reason), w)
  | .loopStart => if s.tape.read = 0 then (jump e .opening s, w) else (.ok s, w)
  | .loopEnd => if s.tape.read = 0 then (.ok s, w) else (jump e .closing s, w)

/-- A run of the ideal machine so far. -/
structure Run (width : CellWidth) (World : Type) where
  ending : Ending
  steps : ℕ
  state : State width
  world : World

/-- A run that stands in a state after so many steps. -/
def stand (e : Engine World) (steps : ℕ) (s : State width) (w : World) : Run width World :=
  ⟨if s.position < e.program.size then .unfinished else .halted, steps, s, w⟩

/-- One more step of a run that is not over. -/
def next (e : Engine World) (r : Run width World) : Run width World :=
  match r.ending, e.program.get? r.state.position with
  | .unfinished, some i =>
    match perform e i r.state r.world with
    | (.error fault, w) => { r with ending := .stopped fault, world := w }
    | (.ok s, w) => stand e (r.steps + 1) { s with position := s.position + 1 } w
  | _, _ => r

/-- The first `n` steps of a program from a fresh tape. -/
def run (m : Machine) (mode : Mode) (hooks : Hooks World) (n : ℕ) (w : World) : Run mode.width World :=
  (next (m.engine hooks mode.eof))^[n] (stand (m.engine hooks mode.eof) 0 {} w)

/-! Cells by the numbers that they stand for. -/

theorem Cell.value_zero : (0 : Cell width).value = 0 := by
  cases width <;> rfl

/-- A residue is a byte. -/
theorem Cell.value_bounds (c : Cell .byte) : 0 ≤ c.value ∧ c.value ≤ 255 := by
  have := ZMod.val_lt (n := 256) c
  simp only [Cell.value]
  omega

theorem Cell.value_intCast (d : ℤ) : (d : Cell .byte).value = d % 256 := ZMod.val_intCast (n := 256) d

theorem Cell.value_eq_zero (c : Cell width) : c.value = 0 ↔ c = 0 := by
  cases width with
  | byte =>
    simp only [Cell.value]
    rw [Int.natCast_eq_zero]
    exact ZMod.val_eq_zero (n := 256) c
  | unbounded => rfl

theorem Cell.value_add_residue (c : Cell .byte) (d : ℤ) :
    (c + (d : Cell .byte)).value = (c.value + d) % 256 := by
  have h : c + (d : Cell .byte) = ((c.value + d : ℤ) : Cell .byte) := by
    rw [Int.cast_add]
    congr 1
    exact (ZMod.natCast_zmod_val (n := 256) c).symm.trans (Int.cast_natCast _).symm
  rw [h, Cell.value_intCast]

theorem Cell.value_add_integer (c : Cell .unbounded) (d : ℤ) : (c + Int.cast d).value = c.value + d := rfl

theorem Cell.value_natCast (b : UInt8) : ((b.toNat : ℕ) : Cell width).value = b.toNat := by
  cases width with
  | byte =>
    have hb := b.toNat_lt
    exact congrArg Nat.cast ((ZMod.val_natCast 256 b.toNat).trans (Nat.mod_eq_of_lt hb))
  | unbounded => rfl

/-- A word and a cell of the same number are emitted as the same byte. -/
theorem Cell.toByte_eq {v : Int64} {c : Cell width} (h : v.toInt = c.value) :
    c.toByte = TapeMachine.Tape.outputByte v := by
  rw [TapeMachine.Tape.outputByte, h]
  cases width with
  | byte =>
    have := ZMod.val_lt (n := 256) c
    simp only [Cell.toByte, Cell.value]
    congr 1
    omega
  | unbounded => rfl

theorem Tape.cells_write (t : Tape width) (c : Cell width) (a : ℤ) :
    (t.write c).cells a = if a = t.pointer then c else t.cells a := Function.update_apply _ _ _ _

/-! One step of a run. -/

theorem next_stand {e : Engine World} {s s' : State width} {i : Instruction} {w w' : World}
    (hi : e.program.get? s.position = some i) (hp : perform e i s w = (.ok s', w')) (k : ℕ) :
    next e (stand e k s w) = stand e (k + 1) { s' with position := s'.position + 1 } w' := by
  simp only [next, stand, hi, Engine.lt_size_of_get? hi, if_true, hp]

theorem next_stand_fault {e : Engine World} {s : State width} {i : Instruction} {w w' : World} {fault : Fault}
    (hi : e.program.get? s.position = some i) (hp : perform e i s w = (.error fault, w')) (k : ℕ) :
    next e (stand e k s w) = ⟨.stopped fault, k, s, w'⟩ := by
  simp only [next, stand, hi, Engine.lt_size_of_get? hi, if_true, hp]

theorem next_stand_past {e : Engine World} {s : State width} (h : e.program.size ≤ s.position) (k : ℕ)
    (w : World) : next e (stand e k s w) = stand e k s w := by
  simp only [next, stand, Nat.not_lt.2 h, if_false]

end TapeMachine.Ideal
