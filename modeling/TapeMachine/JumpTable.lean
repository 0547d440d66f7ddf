import TapeMachine.Fault
import TapeMachine.Program

/-! The matching of a program's brackets, as a table with one slot per instruction: the position of
the partner for a bracket, nothing for the other instructions. It is built in one pass that keeps
the brackets still open on a stack, innermost first. -/

namespace TapeMachine

structure JumpTable where
  slots : Array (Option Nat)
deriving DecidableEq, Repr

namespace JumpTable

/-- What is known after part of a program: the positions of the brackets still open, innermost
first, and the pairs found. -/
structure Matching where
  unclosed : List Nat
  slots : Array (Option Nat)

def Matching.scan (m : Matching) (position : Nat) : Instruction → Except Fault Matching
  | .loopStart => .ok ⟨position :: m.unclosed, m.slots⟩
  | .loopEnd =>
    match m.unclosed with
    | [] => .error (.unmatchedBracket position .closing)
    | start :: unclosed =>
      .ok ⟨unclosed,
        (m.slots.setIfInBounds start (some position)).setIfInBounds position (some start)⟩
  | _ => .ok m

def Matching.scanAll (m : Matching) (position : Nat) : List Instruction → Except Fault Matching
  | [] => .ok m
  | i :: rest =>
    match m.scan position i with
    | .error fault => .error fault
    | .ok next => next.scanAll (position + 1) rest

/-- The table of a program, or the bracket without a partner: the first closing bracket that closes
nothing, else the innermost opening bracket that is never closed. -/
def build (p : Program) : Except Fault JumpTable :=
  match Matching.scanAll ⟨[], Array.replicate p.size none⟩ 0 p.toList with
  | .error fault => .error fault
  | .ok m =>
    match m.unclosed with
    | [] => .ok ⟨m.slots⟩
    | start :: _ => .error (.unmatchedBracket start .opening)

def target? (t : JumpTable) (position : Nat) : Option Nat := t.slots[position]?.join

/-- The matched positions with their partners, ascending. Each pair of brackets is listed from both
ends. -/
def pairs (t : JumpTable) : List (Nat × Nat) :=
  t.slots.toList.zipIdx.filterMap (fun slot => slot.1.map (fun target => (slot.2, target)))

/-- The number of matched brackets. -/
def size (t : JumpTable) : Nat := t.slots.toList.countP Option.isSome

def isEmpty (t : JumpTable) : Bool := t.size == 0

def loopCount (t : JumpTable) : Nat := t.size / 2

end JumpTable

end TapeMachine
