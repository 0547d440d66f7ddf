import Std.Data.ExtTreeMap

/-! The tape: cells at signed 64-bit addresses, of which only those written are stored. A cell that
was never written holds 0, and a stored 0 still counts as touched. Addresses and cells wrap round in
64 bits; byte cells are reduced modulo 256 after each addition. -/

namespace TapeMachine

inductive CellWidth where
  | byte
  | unbounded
deriving DecidableEq, Repr

/-- The value that a cell of this width keeps of `v`. -/
def CellWidth.apply : CellWidth → Int64 → Int64
  | .byte, v => Int64.ofInt (v.toInt % 256)
  | .unbounded, v => v

structure Tape where
  width : CellWidth := .byte
  pointer : Int64 := 0
  cells : Std.ExtTreeMap Int64 Int64 := ∅

namespace Tape

def get (t : Tape) (address : Int64) : Int64 := t.cells.getD address 0

def read (t : Tape) : Int64 := t.get t.pointer

/-- Stores `v` as it is, whatever the width. -/
def write (t : Tape) (v : Int64) : Tape := { t with cells := t.cells.insert t.pointer v }

def adjust (t : Tape) (delta : Int64) : Tape := t.write (t.width.apply (t.read + delta))

def move (t : Tape) (delta : Int64) : Tape := { t with pointer := t.pointer + delta }

/-- The number of cells written so far. -/
def touched (t : Tape) : Nat := t.cells.size

/-- The byte that a cell stands for on output: its value modulo 256. -/
def outputByte (cell : Int64) : UInt8 := UInt8.ofNat (cell.toInt % 256).toNat

/-- The cells other than 0 between two addresses, both included, ascending. -/
def nonzeroBetween (t : Tape) (low high : Int64) : List (Int64 × Int64) :=
  t.cells.toList.filter (fun cell => low ≤ cell.1 && cell.1 ≤ high && cell.2 != 0)

end Tape

end TapeMachine
