import TapeMachine.Proofs.Cell
import TapeMachine.Proofs.Run
import TapeMachine.Device

/-! Byte cells are unbounded cells modulo 256. Taking residues commutes with every instruction but a
loop test, which it may answer differently on a multiple of 256 other than 0. As long as no bracket
meets such a cell, the run with byte cells is the run with unbounded cells, residues taken. -/

namespace TapeMachine

variable {World : Type}

def State.residue (s : State) : State := { s with tape := s.tape.residue }

@[simp] theorem State.tape_residue (s : State) : s.residue.tape = s.tape.residue := rfl

@[simp] theorem State.cursor_residue (s : State) : s.residue.cursor = s.cursor := rfl

def Run.residue (r : Run World) : Run World := { r with state := r.state.residue }

/-- A bracket is about to be executed on a multiple of 256 other than 0. -/
def Program.Misjudges (p : Program) (s : State) : Prop :=
  (p.get? s.cursor.position).any Instruction.isBracket = true ∧
    s.tape.read ≠ 0 ∧ (256 : ℤ) ∣ s.tape.read.toInt

instance (p : Program) (s : State) : Decidable (p.Misjudges s) := by
  unfold Program.Misjudges
  infer_instance

theorem Program.read_of_not_misjudges {p : Program} {s : State} (h : ¬ p.Misjudges s) {i : Instruction}
    (hi : p.get? s.cursor.position = some i) (hb : i.isBracket = true) :
    byteOf s.tape.read = 0 ↔ s.tape.read = 0 := by
  constructor
  · intro h0
    by_contra hne
    exact h ⟨by rw [hi]; exact hb, hne, (byteOf_eq_zero _).1 h0⟩
  · intro h0
    rw [h0, byteOf_zero]

/-- The same with the residues of the cells. -/
def Outcome.residue {α : Type} (o : Outcome World α) : Outcome World α := { o with state := o.state.residue }

theorem Outcome.residue_move (s : State) (w : World) (d : Int64) :
    (⟨.ok (), { s with tape := s.tape.move d }, w⟩ : Outcome World Unit).residue =
      ⟨.ok (), { s.residue with tape := s.residue.tape.move d }, w⟩ := rfl

namespace Engine

/-- No step changes the width of the cells. -/
theorem width_step (e : Engine World) (s : State) (w : World) :
    (e.step s w).state.tape.width = s.tape.width := (e.edit_of_step s w).width_eq

theorem jump_residue (e : Engine World) (b : Bracket) (s : State) (w : World) :
    e.jump b s.residue w = (e.jump b s w).residue := by
  unfold jump
  cases h : e.jumps.target? s.cursor.position <;> simp [State.residue, h, Outcome.residue]

/-- Performing an instruction commutes with taking residues, for a bracket unless it misjudges. -/
theorem perform_residue {e : Engine World} {i : Instruction} {s : State} (w : World)
    (hw : s.tape.width = .unbounded)
    (hb : i.isBracket = true → (byteOf s.tape.read = 0 ↔ s.tape.read = 0)) :
    e.perform i s.residue w = (e.perform i s w).residue := by
  have hread : s.residue.tape.read = byteOf s.tape.read := by
    rw [State.tape_residue, Tape.read_residue]
  cases i with
  | right | left => exact (Outcome.residue_move s w _).symm
  | increment | decrement =>
    simp only [perform, Outcome.residue, State.residue, Tape.residue_adjust hw]
  | output =>
    simp only [perform, hread, outputByte_byteOf]
    rcases e.hooks.write (Tape.outputByte s.tape.read) w with ⟨_ | _, w'⟩ <;> rfl
  | input =>
    simp only [perform, endOfInput]
    rcases e.hooks.read w with ⟨b | _ | _, w'⟩
    · simp only [Outcome.residue, State.residue, Tape.residue_write, byteOf_ofNat]
    · cases e.eof
      · simp only [Outcome.residue, State.residue, Tape.residue_write, byteOf_zero]
      · rfl
      · rfl
    · rfl
  | loopStart =>
    have h0 := hb rfl
    simp only [perform, hread, h0]
    split_ifs
    · rw [jump_residue]
    · rfl
  | loopEnd =>
    have h0 := hb rfl
    simp only [perform, hread, h0]
    split_ifs
    · rfl
    · rw [jump_residue]

theorem step_residue {e : Engine World} {s : State} (w : World) (hw : s.tape.width = .unbounded)
    (h : ¬ e.program.Misjudges s) :
    e.step s.residue w = ⟨(e.step s w).result, (e.step s w).state.residue, (e.step s w).world⟩ := by
  cases hi : e.program.get? s.cursor.position with
  | none =>
    have hi' : e.program.get? s.residue.cursor.position = none := by rw [State.cursor_residue, hi]
    rw [step, hi', step, hi]
  | some i =>
    have hi' : e.program.get? s.residue.cursor.position = some i := by rw [State.cursor_residue, hi]
    have hp := e.perform_residue w hw (Program.read_of_not_misjudges h hi)
    rcases hs : e.perform i s w with ⟨fault | _, s', w'⟩
    · rw [hs] at hp
      rw [step_fault hi' hp, step_fault hi hs]
    · rw [hs] at hp
      rw [step_ok hi' hp, step_ok hi hs]
      rfl

theorem next_residue {e : Engine World} {r : Run World} (hw : r.state.tape.width = .unbounded)
    (h : r.ending = .unfinished → ¬ e.program.Misjudges r.state) :
    e.next r.residue = (e.next r).residue := by
  obtain ⟨ending, k, s, w⟩ := r
  cases ending with
  | unfinished =>
    have hs := step_residue w hw (h rfl)
    rcases step_cases e s w with ⟨fault, w', hstep⟩ | ⟨s', w', hstep⟩
    · rw [hstep] at hs
      rw [next_fault hstep]
      exact next_fault hs k
    · rw [hstep] at hs
      rw [next_ok hstep]
      exact next_ok hs k
  | _ => rfl

theorem width_next (e : Engine World) (r : Run World) :
    (e.next r).state.tape.width = r.state.tape.width := by
  obtain ⟨ending, k, s, w⟩ := r
  cases ending with
  | unfinished =>
    have hs := e.width_step s w
    rcases step_cases e s w with ⟨fault, w', hstep⟩ | ⟨s', w', hstep⟩
    · rw [next_fault hstep]
    · rw [hstep] at hs
      rw [next_ok hstep]
      exact hs
  | _ => rfl

theorem width_iterate (e : Engine World) (n : ℕ) (r : Run World) :
    (e.next^[n] r).state.tape.width = r.state.tape.width := by
  induction n with
  | zero => rfl
  | succ n ih => rw [Function.iterate_succ_apply', width_next, ih]

theorem iterate_residue {e : Engine World} {r : Run World} (hw : r.state.tape.width = .unbounded) (n : ℕ)
    (h : ∀ j < n, (e.next^[j] r).ending = .unfinished → ¬ e.program.Misjudges (e.next^[j] r).state) :
    e.next^[n] r.residue = (e.next^[n] r).residue := by
  induction n with
  | zero => rfl
  | succ n ih =>
    rw [Function.iterate_succ_apply', ih (fun j hj => h j (by omega)), Function.iterate_succ_apply']
    exact next_residue (by rw [width_iterate, hw]) (h n n.lt_succ_self)

end Engine

/-- A run with byte cells that is the residue of a run with unbounded cells. -/
structure Run.ResidueOf (b u : Run World) : Prop where
  ending : b.ending = u.ending
  steps : b.steps = u.steps
  world : b.world = u.world
  cursor : b.state.cursor = u.state.cursor
  pointer : b.state.tape.pointer = u.state.tape.pointer
  touches : ∀ a, b.state.tape.cells.contains a = u.state.tape.cells.contains a
  touched : b.state.tape.touched = u.state.tape.touched
  cell : ∀ a, (b.state.tape.get a).toInt = (u.state.tape.get a).toInt % 256

theorem Run.residueOf_residue (r : Run World) : r.residue.ResidueOf r where
  ending := rfl
  steps := rfl
  world := rfl
  cursor := rfl
  pointer := rfl
  touches := r.state.tape.contains_residue
  touched := r.state.tape.touched_residue
  cell a := by
    rw [← toInt_byteOf, ← Tape.get_residue]
    rfl

namespace Machine

theorem start_residue (m : Machine) (eof : EofPolicy) (hooks : Hooks World) (w : World) :
    (m.start ⟨.unbounded, eof⟩ hooks w).residue = m.start ⟨.byte, eof⟩ hooks w := by
  rw [start_eq, start_eq, Run.residue, State.residue, Tape.residue_fresh]

theorem run_byte {m : Machine} {eof : EofPolicy} {hooks : Hooks World} {w : World} {n : ℕ}
    (h : ∀ s ∈ m.visits ⟨.unbounded, eof⟩ hooks {} n w, ¬ m.program.Misjudges s) :
    m.run ⟨.byte, eof⟩ hooks {} n w = (m.run ⟨.unbounded, eof⟩ hooks {} n w).residue := by
  rw [run_free, run_free, ← start_residue]
  refine Engine.iterate_residue (by rw [start_eq]) n (fun j hj hu => ?_)
  apply h
  rw [start_eq] at hu ⊢
  exact (Engine.mem_visits _ n _ _ _ w _).2 ⟨j, hj, hu, rfl⟩

/-- As long as the run with unbounded cells executes no bracket on a multiple of 256 other than 0, the
run with byte cells stands where it does, has called the hooks as it has, and holds its cells modulo
256. A program without brackets meets no such cell. -/
theorem byte_run_residue (m : Machine) (eof : EofPolicy) (hooks : Hooks World) (w : World) (n : ℕ) :
    ((∀ s ∈ m.visits ⟨.unbounded, eof⟩ hooks {} n w, ¬ m.program.Misjudges s) →
      (m.run ⟨.byte, eof⟩ hooks {} n w).ResidueOf (m.run ⟨.unbounded, eof⟩ hooks {} n w)) ∧
    (m.program.bracketCount = 0 →
      (m.run ⟨.byte, eof⟩ hooks {} n w).ResidueOf (m.run ⟨.unbounded, eof⟩ hooks {} n w)) := by
  have key : (∀ s ∈ m.visits ⟨.unbounded, eof⟩ hooks {} n w, ¬ m.program.Misjudges s) →
      (m.run ⟨.byte, eof⟩ hooks {} n w).ResidueOf (m.run ⟨.unbounded, eof⟩ hooks {} n w) := by
    intro h
    rw [run_byte h]
    exact Run.residueOf_residue _
  refine ⟨key, fun hb => key (fun s _ hs => ?_)⟩
  obtain ⟨i, hi, hbr⟩ := (Option.any_eq_true _ _).1 hs.1
  rw [← Program.getElem?_toList] at hi
  have := List.countP_eq_zero.1 hb i (List.mem_of_getElem? hi)
  exact this hbr

/-- `+[->-<]>.` leaves -1 in an unbounded cell and 255 in a byte cell, and writes 255 in both cases. -/
theorem byte_run_residue_negative : ∃ m : Machine,
    m.program = .ofSource "+[->-<]>." ∧
    (∀ s ∈ m.visits ⟨.unbounded, .zero⟩ Device.hooks {} 9 {}, ¬ m.program.Misjudges s) ∧
    (m.run ⟨.byte, .zero⟩ Device.hooks {} 9 {}).ResidueOf
      (m.run ⟨.unbounded, .zero⟩ Device.hooks {} 9 {}) ∧
    (m.run ⟨.unbounded, .zero⟩ Device.hooks {} 9 {}).ending = .halted ∧
    (m.run ⟨.unbounded, .zero⟩ Device.hooks {} 9 {}).state.tape.get 1 = -1 ∧
    (m.run ⟨.unbounded, .zero⟩ Device.hooks {} 9 {}).world.written = #[255] := by
  let m : Machine := ⟨.ofSource "+[->-<]>.",
    ⟨#[none, some 6, none, none, none, none, some 1, none, none]⟩, by decide⟩
  have h : ∀ s ∈ m.visits ⟨.unbounded, .zero⟩ Device.hooks {} 9 {}, ¬ m.program.Misjudges s := by decide
  exact ⟨m, rfl, h, (byte_run_residue m .zero Device.hooks {} 9).1 h, by decide, by decide, by decide⟩

end Machine

end TapeMachine
