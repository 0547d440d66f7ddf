import TapeMachine.Proofs.Cell

/-! Updates that fold into one. What has been added to a cell before may be added at once, for byte cells
because taking residues may wait until the last addition, and a move may be made with the one before it. An
update leaves the other cells alone, so two of them at two places may change their order. All of this is about
tapes as they are, with the cells that are stored, whatever these hold. -/

namespace TapeMachine

theorem CellWidth.apply_add_apply (w : CellWidth) (v d : Int64) : w.apply (w.apply v + d) = w.apply (v + d) := by
  cases w with
  | byte => exact byteOf_add v d
  | unbounded => rfl

namespace Tape

variable (t : Tape)

theorem write_write (u v : Int64) : (t.write u).write v = t.write v := by
  simp only [write, mk.injEq, true_and]
  refine Std.ExtTreeMap.ext_getElem? fun a => ?_
  simp only [Std.ExtTreeMap.getElem?_insert]
  split_ifs <;> rfl

theorem adjust_adjust (a b : Int64) : (t.adjust a).adjust b = t.adjust (a + b) := by
  have hwidth : (t.adjust a).width = t.width := rfl
  have hread : (t.adjust a).read = t.width.apply (t.read + a) := t.read_write _
  rw [adjust, hread, hwidth, CellWidth.apply_add_apply, Int64.add_assoc]
  exact t.write_write _ _

theorem move_move (a b : Int64) : (t.move a).move b = t.move (a + b) := by
  simp only [move, Int64.add_assoc]

/-- The first addition touches the cell, and the others fold into it. -/
theorem iterate_adjust (n : ℕ) : (fun t : Tape => t.adjust 1)^[n + 1] t = t.adjust (Int64.ofNat (n + 1)) := by
  induction n with
  | zero => rfl
  | succ n ih =>
    rw [Function.iterate_succ_apply', ih, adjust_adjust, Int64.ofNat_add (n + 1)]
    rfl

/-- The tape after adding `a` to the cell `d` addresses further on, with the pointer where it was. -/
def adjustAt (d a : Int64) : Tape := ((t.move d).adjust a).move (-d)

theorem adjustAt_zero (a : Int64) : t.adjustAt 0 a = t.adjust a := by
  have hmove (t : Tape) : t.move 0 = t := by rw [move, Int64.add_zero]
  rw [adjustAt, hmove, Int64.neg_zero, hmove]

theorem pointer_adjustAt (d a : Int64) : (t.adjustAt d a).pointer = t.pointer := by
  rw [adjustAt, move, adjust, write, move, ← Int64.sub_eq_add_neg, Int64.add_sub_cancel]

theorem write_comm {d : Int64} (hd : d ≠ 0) (u v : Int64) :
    (((t.move d).write u).move (-d)).write v = (((t.write v).move d).write u).move (-d) := by
  have hback : t.pointer + d + -d = t.pointer := by rw [← Int64.sub_eq_add_neg, Int64.add_sub_cancel]
  simp only [write, move, mk.injEq, true_and, hback]
  refine Std.ExtTreeMap.ext_getElem? fun a => ?_
  simp only [Std.ExtTreeMap.getElem?_insert, Std.LawfulEqCmp.compare_eq_iff_eq]
  split_ifs with h h'
  · rw [← h, Int64.add_eq_left] at h'
    exact absurd h' hd
  all_goals rfl

/-- Additions in two cells may change their order, and in one cell, too. -/
theorem adjustAt_adjust (d a b : Int64) : (t.adjustAt d a).adjust b = (t.adjust b).adjustAt d a := by
  by_cases hd : d = 0
  · rw [hd, adjustAt_zero, adjustAt_zero, adjust_adjust, adjust_adjust, Int64.add_comm]
  · have hne : t.pointer + d ≠ t.pointer := mt Int64.add_eq_left.1 hd
    have hthere : ((t.adjust b).move d).read = (t.move d).read := (t.get_write _ _).trans (if_neg hne)
    have hhere : (t.adjustAt d a).read = t.read := by
      rw [read, pointer_adjustAt]
      exact ((t.move d).get_write _ _).trans (if_neg hne.symm)
    calc (t.adjustAt d a).adjust b
        = (t.adjustAt d a).write (t.width.apply (t.read + b)) := by rw [adjust, hhere]; rfl
      _ = (((t.adjust b).move d).write (t.width.apply ((t.move d).read + a))).move (-d) := t.write_comm hd _ _
      _ = (t.adjust b).adjustAt d a := by rw [← hthere]; rfl

end Tape

/-- Updates of a tape fold, whatever it holds. Two additions to the current cell are one, and two moves are one.
If `n` is not 0, `n` additions of 1 are one addition of `n` as a word; none at all would touch no cell. An
addition to the cell at some distance and one to the current cell may be made in either order. In all of this
the tapes are equal, so they have the same pointer and the same cells, and have touched as many. -/
theorem updates_fold (t : Tape) :
    (∀ a b, (t.adjust a).adjust b = t.adjust (a + b)) ∧
    (∀ a b, (t.move a).move b = t.move (a + b)) ∧
    (∀ n, 1 ≤ n → (fun t : Tape => t.adjust 1)^[n] t = t.adjust (Int64.ofNat n)) ∧
    ∀ d a b, (t.adjustAt d a).adjust b = (t.adjust b).adjustAt d a := by
  refine ⟨t.adjust_adjust, t.move_move, fun n hn => ?_, t.adjustAt_adjust⟩
  obtain ⟨k, rfl⟩ := Nat.exists_eq_add_of_le' hn
  exact t.iterate_adjust k

/-- A byte cell that has been given 300. Adding the greatest word twice takes 2 from it, whether or not the
residue is taken in between, and 257 additions of 1 are one of 257. -/
theorem updates_fold_out_of_range :
    let t : Tape := Tape.write {} 300
    (t.adjust Int64.maxValue).adjust Int64.maxValue = t.adjust (-2) ∧ (t.adjust (-2)).read = 42 ∧
    (t.move Int64.minValue).move Int64.minValue = t ∧
    1 ≤ 257 ∧ (fun t : Tape => t.adjust 1)^[257] t = t.adjust 257 ∧
    (t.adjustAt Int64.minValue 1).adjust (-1) = (t.adjust (-1)).adjustAt Int64.minValue 1 := by
  intro t
  obtain ⟨hadd, hmove, hmany, hswap⟩ := updates_fold t
  exact ⟨hadd _ _, by decide, hmove _ _, by decide, hmany 257 (by decide), hswap _ _ _⟩

end TapeMachine
