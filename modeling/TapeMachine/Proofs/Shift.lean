import TapeMachine.Proofs.Retry
import TapeMachine.Proofs.Simulation

/-! Tapes that lie elsewhere. To shift a tape is to add the same to its pointer and to the address of every
cell that it stores, round the ends of the words if need be. Adding is one to one, so no two cells fall on
each other and a shifted tape answers at the shifted address. An instruction names no address but that of the
pointer, so it cannot tell the two tapes from each other, and what it makes of them lies as far apart. -/

namespace TapeMachine

namespace Tape

/-- The tape with the pointer and every stored cell `d` addresses further on. -/
def shift (d : Int64) (t : Tape) : Tape :=
  { t with
    pointer := t.pointer + d
    cells := .ofList (t.cells.toList.map fun cell => (cell.1 + d, cell.2)) }

section shift

variable (t : Tape) (d : Int64)

/-- No two cells are shifted to one place. -/
theorem distinct_shift : (t.cells.toList.map fun cell => (cell.1 + d, cell.2)).Pairwise
    fun a b => ¬ compare a.1 b.1 = .eq := by
  rw [List.pairwise_map]
  apply Std.ExtTreeMap.distinct_keys_toList.imp
  intro a b h h'
  rw [Std.LawfulEqCmp.compare_eq_iff_eq] at h h'
  exact h ((Int64.add_left_inj d).1 h')

theorem getElem?_shift (a : Int64) : (t.shift d).cells[a + d]? = t.cells[a]? := by
  cases ha : t.cells[a]? with
  | some v =>
    have hmem : (a, v) ∈ t.cells.toList := Std.ExtTreeMap.mem_toList_iff_getElem?_eq_some.2 ha
    exact Std.ExtTreeMap.getElem?_ofList_of_mem Std.ReflCmp.compare_self (t.distinct_shift d)
      (List.mem_map_of_mem hmem)
  | none =>
    apply Std.ExtTreeMap.getElem?_ofList_of_contains_eq_false
    rw [List.map_map, List.contains_eq_mem, decide_eq_false_iff_not, List.mem_map]
    rintro ⟨⟨b, v⟩, hmem, hb⟩
    obtain rfl := (Int64.add_left_inj d).1 hb
    rw [Std.ExtTreeMap.mem_toList_iff_getElem?_eq_some.1 hmem] at ha
    cases ha

theorem get_shift (a : Int64) : (t.shift d).get (a + d) = t.get a := by
  rw [get, get, Std.ExtTreeMap.getD_eq_getD_getElem?, getElem?_shift, Std.ExtTreeMap.getD_eq_getD_getElem?]

/-- Neighbours stay neighbours round the end of the words. -/
example : ((((write {} 5).move 1).write 7).shift Int64.maxValue).cells.toList =
    [(Int64.minValue, 7), (Int64.maxValue, 5)] := by decide

theorem read_shift : (t.shift d).read = t.read := t.get_shift d t.pointer

theorem touched_shift : (t.shift d).touched = t.touched := by
  rw [touched, shift, Std.ExtTreeMap.size_ofList (t.distinct_shift d), List.length_map,
    Std.ExtTreeMap.length_toList, touched]

theorem shift_move (c : Int64) : (t.shift d).move c = (t.move c).shift d := by
  simp only [move, shift, mk.injEq, true_and, and_true]
  ac_rfl

theorem shift_write (v : Int64) : (t.shift d).write v = (t.write v).shift d := by
  suffices hcells : ((t.shift d).write v).cells = ((t.write v).shift d).cells from
    congrArg (Tape.mk t.width (t.pointer + d)) hcells
  apply Std.ExtTreeMap.ext_getElem?
  intro k
  -- every address is a shifted one, since adding wraps round
  obtain ⟨a, rfl⟩ : ∃ a, a + d = k := ⟨k - d, Int64.sub_add_cancel k d⟩
  rw [getElem?_shift, write, write, Std.ExtTreeMap.getElem?_insert, Std.ExtTreeMap.getElem?_insert,
    getElem?_shift]
  simp only [shift, Std.LawfulEqCmp.compare_eq_iff_eq, Int64.add_left_inj]

/-- Tapes that lie `d` apart are read alike, and what becomes of them lies as far apart. -/
theorem carries_shift : Carries (fun t t' => t' = t.shift d) (fun t t' => t' = t.shift d) where
  width h := by rw [h]; rfl
  read h := by rw [h, read_shift]
  keep h := h
  move h _ := by rw [h, shift_move]
  write h v := by rw [h, shift_write]

end shift

end Tape

def State.shift (d : Int64) (s : State) : State := { s with tape := s.tape.shift d }

variable {World : Type}

/-- The same outcome on a tape that lies `d` addresses further on. -/
def Outcome.shift (d : Int64) (o : Outcome World) : Outcome World := { o with state := o.state.shift d }

namespace Engine

theorem step_shift (e : Engine World) (d : Int64) (s : State) (w : World) :
    e.step (s.shift d) w = (e.step s w).shift d := by
  have hs : s.Related (fun t t' => t' = t.shift d) (s.shift d) := ⟨rfl, rfl⟩
  obtain ⟨hresult, hworld, htape, hcursor⟩ := step_related (Tape.carries_shift d) hs e w
  rcases h : e.step s w with ⟨r, ⟨t, c⟩, w'⟩
  rcases h' : e.step (s.shift d) w with ⟨r', ⟨t', c'⟩, w''⟩
  rw [h, h'] at hresult hworld htape hcursor
  obtain rfl : r' = r := hresult
  obtain rfl : w'' = w' := hworld
  obtain rfl : t' = t.shift d := htape
  obtain rfl : c' = c := hcursor
  rfl

theorem drive_shift (e : Engine World) (d : Int64) (n : ℕ) : ∀ (s : State) (w : World),
    e.drive n (s.shift d) w = (e.drive n s w).map (Outcome.shift d) := by
  induction n with
  | zero => exact fun _ _ => rfl
  | succ n ih =>
    intro s w
    rw [drive, drive, List.map_cons, step_shift]
    exact congrArg _ (ih _ _)

theorem later_shift (e : Engine World) (d : Int64) (n : ℕ) : ∀ (s : State) (w : World),
    e.later n (s.shift d) w = ((e.later n s w).1.shift d, (e.later n s w).2) := by
  induction n with
  | zero => exact fun _ _ => rfl
  | succ n ih =>
    intro s w
    rw [later, later, step_shift]
    exact ih _ _

end Engine

/-- No address is special. Step any program, with any table and any hooks, on a tape and on the same tape `d`
addresses further on. Row for row the two drives have the same results, cursors, worlds, calls of the hooks
and numbers of touched cells, and the tapes lie `d` apart, so that after so many steps the one holds at
`a + d` what the other holds at `a`. -/
theorem steps_commute_with_shift (e : Engine World) (d : Int64) (n : ℕ) (s : State) (w : World) :
    e.drive n (s.shift d) w = (e.drive n s w).map (Outcome.shift d) ∧
    (∀ calls : List Call, e.recorded.drive n (s.shift d) (w, calls) =
      (e.recorded.drive n s (w, calls)).map (Outcome.shift d)) ∧
    (e.drive n (s.shift d) w).map (fun o => o.state.tape.touched) =
      (e.drive n s w).map (fun o => o.state.tape.touched) ∧
    e.later n (s.shift d) w = ((e.later n s w).1.shift d, (e.later n s w).2) ∧
    ∀ a, (e.later n (s.shift d) w).1.tape.get (a + d) = (e.later n s w).1.tape.get a := by
  refine ⟨e.drive_shift d n s w, fun calls => e.recorded.drive_shift d n s (w, calls), ?_,
    e.later_shift d n s w, fun a => ?_⟩
  · rw [e.drive_shift, List.map_map]
    exact List.map_congr_left fun o _ => o.state.tape.touched_shift d
  · rw [e.later_shift]
    exact (e.later n s w).1.tape.get_shift d a

end TapeMachine
