import TapeMachine.Proofs.Step

/-! Steps on two tapes at once. `Tape.Carries R R'` says that tapes related by `R` look the same to an
instruction, and that what it makes of them is related by `R'`. This is all that a step needs to do the same
in two states that differ in their tapes only, so a fact about two runs comes down to one about the tape. The
two relations are most often the same one; where they are not, a bound that a step uses up stands between
them. -/

namespace TapeMachine

/-- Tapes of `R` are read alike, and an instruction makes tapes of `R'` of them. -/
structure Tape.Carries (R R' : Tape → Tape → Prop) : Prop where
  width {t t' : Tape} (h : R t t') : t'.width = t.width
  read {t t' : Tape} (h : R t t') : t'.read = t.read
  keep {t t' : Tape} (h : R t t') : R' t t'
  move {t t' : Tape} {d : Int64} (h : R t t') (hd : d = 1 ∨ d = -1) : R' (t.move d) (t'.move d)
  write {t t' : Tape} (h : R t t') (v : Int64) : R' (t.write v) (t'.write v)

theorem Tape.Carries.adjust {R R' : Tape → Tape → Prop} (hc : Carries R R') {t t' : Tape} (h : R t t')
    (d : Int64) : R' (t.adjust d) (t'.adjust d) := by
  rw [Tape.adjust, Tape.adjust, hc.width h, hc.read h]
  exact hc.write h _

/-- States at the same instruction, with tapes of `R`. -/
structure State.Related (R : Tape → Tape → Prop) (s s' : State) : Prop where
  tape : R s.tape s'.tape
  cursor : s'.cursor = s.cursor

variable {World : Type} {R R' : Tape → Tape → Prop}

namespace Engine

/-- What an instruction comes to alike in both states, whether it fails or not. -/
inductive Corresponds (R : Tape → Tape → Prop) : Outcome World Unit → Outcome World Unit → Prop
  | intro (result : Except Fault Unit) (w : World) {s s' : State} (h : s.Related R s') :
      Corresponds R ⟨result, s, w⟩ ⟨result, s', w⟩

theorem jump_related (hc : Tape.Carries R R') {s s' : State} (h : s.Related R s') (e : Engine World)
    (b : Bracket) (w : World) : Corresponds R' (e.jump b s w) (e.jump b s' w) := by
  have hkeep : s.Related R' s' := ⟨hc.keep h.tape, h.cursor⟩
  rw [jump, jump, h.cursor]
  cases e.jumps.target? s.cursor.position with
  | none => exact .intro _ w hkeep
  | some target => exact .intro _ w ⟨hkeep.tape, rfl⟩

theorem endOfInput_related (hc : Tape.Carries R R') {s s' : State} (h : s.Related R s') (e : Engine World)
    (w : World) : Corresponds R' (e.endOfInput s w) (e.endOfInput s' w) := by
  have hkeep : s.Related R' s' := ⟨hc.keep h.tape, h.cursor⟩
  rw [endOfInput, endOfInput, h.cursor]
  cases e.eof with
  | zero => exact .intro _ w ⟨hc.write h.tape 0, rfl⟩
  | unchanged | error => exact .intro _ w hkeep

theorem perform_related (hc : Tape.Carries R R') {s s' : State} (h : s.Related R s') (e : Engine World)
    (i : Instruction) (w : World) : Corresponds R' (e.perform i s w) (e.perform i s' w) := by
  have hkeep : s.Related R' s' := ⟨hc.keep h.tape, h.cursor⟩
  have hread := hc.read h.tape
  cases i with
  | right => exact .intro _ w ⟨hc.move h.tape (.inl rfl), h.cursor⟩
  | left => exact .intro _ w ⟨hc.move h.tape (.inr rfl), h.cursor⟩
  | increment | decrement => exact .intro _ w ⟨hc.adjust h.tape _, h.cursor⟩
  | output =>
    simp only [perform, hread, h.cursor]
    rcases e.hooks.write (Tape.outputByte s.tape.read) w with ⟨_ | _, w'⟩ <;> exact .intro _ w' hkeep
  | input =>
    simp only [perform, h.cursor]
    rcases e.hooks.read w with ⟨b | _ | _, w'⟩
    · exact .intro _ w' ⟨hc.write h.tape _, rfl⟩
    · exact endOfInput_related hc h e w'
    · exact .intro _ w' hkeep
  | loopStart =>
    simp only [perform, hread]
    split_ifs
    · exact jump_related hc h e .opening w
    · exact .intro _ w hkeep
  | loopEnd =>
    simp only [perform, hread]
    split_ifs
    · exact .intro _ w hkeep
    · exact jump_related hc h e .closing w

/-- A step does the same in related states, and leaves related ones. -/
theorem step_related (hc : Tape.Carries R R') {s s' : State} (h : s.Related R s') (e : Engine World)
    (w : World) :
    (e.step s' w).result = (e.step s w).result ∧ (e.step s' w).world = (e.step s w).world ∧
      (e.step s w).state.Related R' (e.step s' w).state := by
  have hkeep : s.Related R' s' := ⟨hc.keep h.tape, h.cursor⟩
  cases hi : e.program.get? s.cursor.position with
  | none =>
    have hpast : e.program.size ≤ s.cursor.position := Array.getElem?_eq_none_iff.1 hi
    rw [step_past hpast, step_past (by rwa [h.cursor])]
    exact ⟨rfl, rfl, hkeep⟩
  | some i =>
    have hi' : e.program.get? s'.cursor.position = some i := by rw [h.cursor, hi]
    have hcorr := perform_related hc h e i w
    generalize hp : e.perform i s w = o, hp' : e.perform i s' w = o' at hcorr
    cases hcorr with
    | @intro result w' t t' ht =>
      cases result with
      | error fault =>
        rw [step_fault hi hp, step_fault hi' hp']
        exact ⟨rfl, rfl, ht⟩
      | ok _ =>
        rw [step_ok hi hp, step_ok hi' hp']
        refine ⟨?_, rfl, ht.tape, congrArg Cursor.advance ht.cursor⟩
        simp only [status, ht.cursor]

end Engine

end TapeMachine
