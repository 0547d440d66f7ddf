import TapeMachine.Tape
import Mathlib.Tactic

/-! Cells modulo 256. Since 256 divides `2 ^ 64`, an addition that wraps round in 64 bits has the
residue of the exact sum, so a byte cell is the residue of an unbounded one after any additions. -/

namespace TapeMachine

theorem emod_bmod_word (x : ℤ) : x.bmod (2 ^ 64) % 256 = x % 256 := by
  rw [← Int.emod_emod_of_dvd (x.bmod (2 ^ 64)) (show (256 : ℤ) ∣ ((2 ^ 64 : ℕ) : ℤ) by decide),
    Int.bmod_emod, Int.emod_emod_of_dvd x (by decide)]

/-- The residue of a cell, as a cell. -/
abbrev byteOf (v : Int64) : Int64 := CellWidth.byte.apply v

theorem toInt_byteOf (v : Int64) : (byteOf v).toInt = v.toInt % 256 := by
  have h0 := Int.emod_nonneg v.toInt (show (256 : ℤ) ≠ 0 by decide)
  have h1 := Int.emod_lt_of_pos v.toInt (show (0 : ℤ) < 256 by decide)
  exact Int64.toInt_ofInt_of_le (by omega) (by omega)

theorem byteOf_eq_iff (v v' : Int64) : byteOf v = byteOf v' ↔ v.toInt % 256 = v'.toInt % 256 := by
  rw [← Int64.toInt_inj, toInt_byteOf, toInt_byteOf]

theorem byteOf_zero : byteOf 0 = 0 := by decide

theorem toInt_add_emod (v d : Int64) : (v + d).toInt % 256 = (v.toInt + d.toInt) % 256 := by
  rw [Int64.toInt_add, emod_bmod_word]

/-- An addition whose exact sum is a signed word does not wrap round. -/
theorem toInt_add_of_range {v d : Int64} (h : -2 ^ 63 ≤ v.toInt + d.toInt)
    (h' : v.toInt + d.toInt < 2 ^ 63) : (v + d).toInt = v.toInt + d.toInt := by
  rw [Int64.toInt_add]
  exact Int.bmod_eq_of_le (by omega) (by omega)

theorem byteOf_add (v d : Int64) : byteOf (byteOf v + d) = byteOf (v + d) := by
  rw [byteOf_eq_iff, toInt_add_emod, toInt_add_emod, toInt_byteOf, Int.emod_add_emod]

theorem byteOf_ofNat (b : UInt8) : byteOf (Int64.ofNat b.toNat) = Int64.ofNat b.toNat := by
  have hb := b.toNat_lt
  have h := Int64.toInt_ofNat_of_lt (n := b.toNat) (by omega)
  rw [← Int64.toInt_inj, toInt_byteOf, h]
  omega

theorem outputByte_byteOf (v : Int64) : Tape.outputByte (byteOf v) = Tape.outputByte v := by
  rw [Tape.outputByte, toInt_byteOf, Int.emod_emod, Tape.outputByte]

/-- A cell and its residue give the same answer to a loop test unless the cell is a multiple of 256
other than 0. -/
theorem byteOf_eq_zero (v : Int64) : byteOf v = 0 ↔ (256 : ℤ) ∣ v.toInt := by
  rw [← byteOf_zero, byteOf_eq_iff, Int.dvd_iff_emod_eq_zero]
  rfl

namespace Tape

theorem get_write (t : Tape) (v a : Int64) :
    (t.write v).get a = if a = t.pointer then v else t.get a := by
  rw [get, write, Std.ExtTreeMap.getD_insert, get]
  simp only [Std.LawfulEqCmp.compare_eq_iff_eq, eq_comm (a := t.pointer)]

theorem read_write (t : Tape) (v : Int64) : (t.write v).read = v := (t.get_write v t.pointer).trans (if_pos rfl)

theorem mem_write {t : Tape} {v a : Int64} : a ∈ (t.write v).cells ↔ a = t.pointer ∨ a ∈ t.cells := by
  rw [write, Std.ExtTreeMap.mem_insert, Std.LawfulEqCmp.compare_eq_iff_eq, eq_comm]

/-- The tape of byte cells with the residues of these. -/
def residue (t : Tape) : Tape := ⟨.byte, t.pointer, t.cells.map fun _ v => byteOf v⟩

theorem get_residue (t : Tape) (a : Int64) : t.residue.get a = byteOf (t.get a) := by
  rw [get, get, residue, Std.ExtTreeMap.getD_map, Std.ExtTreeMap.getD_eq_getD_getElem?]
  cases t.cells[a]? with
  | none => exact byteOf_zero.symm
  | some v => rfl

theorem read_residue (t : Tape) : t.residue.read = byteOf t.read := t.get_residue t.pointer

theorem contains_residue (t : Tape) (a : Int64) : t.residue.cells.contains a = t.cells.contains a :=
  Std.ExtTreeMap.contains_map

theorem touched_residue (t : Tape) : t.residue.touched = t.touched := Std.ExtTreeMap.size_map

theorem residue_fresh (w : CellWidth) : residue { width := w } = { width := .byte } := by
  simp only [residue, mk.injEq, true_and]
  exact Std.ExtTreeMap.ext_getElem? fun k => by simp

theorem residue_move (t : Tape) (d : Int64) : (t.move d).residue = t.residue.move d := rfl

theorem residue_write (t : Tape) (v : Int64) : (t.write v).residue = t.residue.write (byteOf v) := by
  simp only [residue, write, mk.injEq, true_and]
  refine Std.ExtTreeMap.ext_getElem? fun k => ?_
  rw [Std.ExtTreeMap.getElem?_map, Std.ExtTreeMap.getElem?_insert, Std.ExtTreeMap.getElem?_insert,
    Std.ExtTreeMap.getElem?_map]
  split_ifs <;> rfl

theorem residue_adjust {t : Tape} (h : t.width = .unbounded) (d : Int64) :
    (t.adjust d).residue = t.residue.adjust d := by
  have hw : t.width.apply (t.read + d) = t.read + d := by rw [h]; rfl
  rw [adjust, hw, residue_write, ← byteOf_add, ← read_residue]
  rfl

end Tape

end TapeMachine
