import TapeMachine.Proofs.Cell
import TapeMachine.Proofs.Exchange
import TapeMachine.Proofs.Safety

/-! What a step can change, whatever it is given: any jump table, any tape, any position of the cursor, also
one behind the program. A step that fails changes neither tape nor cursor and has made one call at most,
none of which was accepted as output. A step that does not fail moves the cursor to one place only, and
changes the tape in the place of the pointer or in the cell below it, never in both. -/

namespace TapeMachine

/-- A tape with the same cells and the pointer one place further, to the right or to the left. -/
structure Tape.Shifted (t t' : Tape) : Prop where
  width : t'.width = t.width
  cells : t'.cells = t.cells
  pointer : t'.pointer = t.pointer + 1 ∨ t'.pointer = t.pointer - 1

/-- A tape with the same pointer, the same cells stored elsewhere, and any cell below the pointer. -/
structure Tape.Rewritten (t t' : Tape) : Prop where
  width : t'.width = t.width
  pointer : t'.pointer = t.pointer
  cells : ∀ a, a ≠ t.pointer → t'.cells[a]? = t.cells[a]?

namespace Tape

theorem shifted_move (t : Tape) {d : Int64} (hd : d = 1 ∨ d = -1) : t.Shifted (t.move d) where
  width := rfl
  cells := rfl
  pointer := hd.imp (fun h => by rw [move, h]) (fun h => by rw [move, h, Int64.sub_eq_add_neg])

theorem rewritten_write (t : Tape) (v : Int64) : t.Rewritten (t.write v) where
  width := rfl
  pointer := rfl
  cells a ha := by
    rw [write, Std.ExtTreeMap.getElem?_insert]
    simp only [Std.LawfulEqCmp.compare_eq_iff_eq, Ne.symm ha, if_false]

theorem Edit.shape {t t' : Tape} (h : t.Edit t') : t' = t ∨ t.Shifted t' ∨ t.Rewritten t' := by
  cases h with
  | keep => exact .inl rfl
  | move hd => exact .inr (.inl (t.shifted_move hd))
  | adjust d | store b => exact .inr (.inr (t.rewritten_write _))

end Tape

variable {World : Type}

namespace Engine

/-- The instruction under the cursor has to jump from this bracket: a `[` whose cell is 0, or a `]` whose
cell is not. -/
def Due (e : Engine World) (s : State) : Bracket → Prop
  | .opening => e.program.get? s.cursor.position = some .loopStart ∧ s.tape.read = 0
  | .closing => e.program.get? s.cursor.position = some .loopEnd ∧ s.tape.read ≠ 0

/-! Steps that fail. -/

theorem length_calls_le (e : Engine World) (s : State) (w : World) : (e.calls s w).length ≤ 1 := by
  unfold calls
  cases e.program.get? s.cursor.position with
  | none => simp
  | some i => cases i <;> simp [callsOf]

/-- An output that fails is refused, and nothing else that fails hands over a byte. -/
theorem Fails.output_callsOf {e : Engine World} {s : State} {w w' : World} {i : Instruction} {f : Fault}
    (h : e.Fails s w i f w') : Call.output (e.callsOf i s w) = [] := by
  cases h with
  | unwritten h => simp [callsOf, h, Call.output]
  | unread h | exhausted _ h => simp [callsOf, Call.output]
  | unclosed | unopened => rfl

/-- A bracket is reported just when it has to jump and has no target. -/
theorem unmatched_iff (e : Engine World) (s : State) (w : World) (p : ℕ) (b : Bracket) :
    (e.step s w).result = .error (.unmatchedBracket p b) ↔
      p = s.cursor.position ∧ e.Due s b ∧ e.jumps.target? s.cursor.position = none := by
  constructor
  · intro h
    obtain ⟨-, i, hi, hf⟩ := fails_of_step_error h
    generalize (e.step s w).world = w' at hf
    cases hf with
    | unclosed h0 ht | unopened h0 ht => exact ⟨rfl, ⟨hi, h0⟩, ht⟩
  · rintro ⟨rfl, hd, ht⟩
    cases b with
    | opening =>
      obtain ⟨hi, h0⟩ := hd
      rw [step_fault hi (Fails.unclosed h0 ht).perform]
    | closing =>
      obtain ⟨hi, h0⟩ := hd
      rw [step_fault hi (Fails.unopened h0 ht).perform]

/-! Steps that do not fail. -/

theorem perform_due {e : Engine World} {s : State} {b : Bracket} {i : Instruction} (w : World)
    (hi : e.program.get? s.cursor.position = some i) (h : e.Due s b) :
    e.perform i s w = e.jump b s w := by
  cases b with
  | opening =>
    obtain ⟨hi', h0⟩ := h
    cases hi.symm.trans hi'
    simp only [perform, h0, if_true]
  | closing =>
    obtain ⟨hi', h0⟩ := h
    cases hi.symm.trans hi'
    simp only [perform, h0, if_false]

/-- Only an instruction that has to jump moves the cursor. -/
theorem cursor_of_perform {e : Engine World} {i : Instruction} {s s' : State} {w w' : World}
    (hi : e.program.get? s.cursor.position = some i) (h : e.perform i s w = ⟨.ok (), s', w'⟩)
    (hd : ∀ b, ¬ e.Due s b) : s'.cursor = s.cursor := by
  cases i with
  | output =>
    simp only [perform] at h
    split at h <;> cases h
    rfl
  | input =>
    simp only [perform] at h
    split at h
    · cases h
      rfl
    · cases he : e.eof <;> simp only [endOfInput, he] at h <;> cases h <;> rfl
    · cases h
  | loopStart =>
    have h0 : s.tape.read ≠ 0 := fun h0 => hd .opening ⟨hi, h0⟩
    simp only [perform, h0, if_false] at h
    cases h
    rfl
  | loopEnd =>
    have h0 : s.tape.read = 0 := by
      by_contra h0
      exact hd .closing ⟨hi, h0⟩
    simp only [perform, h0, if_true] at h
    cases h
    rfl
  | _ =>
    cases h
    rfl

/-- What performing an instruction leaves, and the step is over with the cursor moved on. -/
theorem perform_of_step_ok {e : Engine World} {s : State} {w : World} {st : Status}
    (hs : s.cursor.position < e.program.size) (h : (e.step s w).result = .ok st) :
    ∃ i s' w', e.program.get? s.cursor.position = some i ∧ e.perform i s w = ⟨.ok (), s', w'⟩ ∧
      (e.step s w).state = ⟨s'.tape, s'.cursor.advance⟩ := by
  have hi : e.program.get? s.cursor.position = some _ := Array.getElem?_eq_getElem hs
  rcases hp : e.perform _ s w with ⟨fault | _, s', w'⟩
  · rw [step_fault hi hp] at h
    cases h
  · exact ⟨_, s', w', hi, hp, by rw [step_ok hi hp]⟩

theorem status_of_step_ok {e : Engine World} {s : State} {w : World} {st : Status}
    (h : (e.step s w).result = .ok st) : st = .halted ↔ e.program.size ≤ (e.step s w).state.cursor.position := by
  rcases e.step_cases s w with ⟨fault, w', hs⟩ | ⟨s', w', hs⟩ <;> rw [hs] at h ⊢ <;> cases h
  exact status_halted

/-- A step that does not fail goes on behind the target of a bracket that has to jump, and else behind
its own instruction. -/
theorem cursor_of_step_ok {e : Engine World} {s : State} {w : World} {st : Status}
    (hs : s.cursor.position < e.program.size) (h : (e.step s w).result = .ok st) :
    (∀ b, e.Due s b → ∃ target, e.jumps.target? s.cursor.position = some target ∧
      (e.step s w).state.cursor.position = target + 1) ∧
    ((∀ b, ¬ e.Due s b) → (e.step s w).state.cursor.position = s.cursor.position + 1) := by
  obtain ⟨i, s', w', hi, hp, hstate⟩ := perform_of_step_ok hs h
  rw [hstate]
  constructor
  · intro b hd
    rw [perform_due w hi hd] at hp
    exact ⟨_, (jump_ok hp).1, rfl⟩
  · intro hd
    rw [cursor_of_perform hi hp hd]
    rfl

end Engine

namespace Device

theorem written_read (d : Device) : d.read.2.written = d.written := by
  unfold read
  split <;> rfl

/-- A byte that is refused is not in the record. -/
theorem written_refused {d d' : Device} {b : UInt8} {reason : String} (h : d.write b = (.failure reason, d')) :
    d'.written = d.written := by
  unfold write at h
  split at h <;> cases h
  rfl

theorem written_of_fails {e : Engine Device} (he : e.hooks = Device.hooks) {s : State} {d d' : Device}
    {i : Instruction} {f : Fault} (h : e.Fails s d i f d') : d'.written = d.written := by
  cases h with
  | unwritten h =>
    rw [he] at h
    exact written_refused h
  | unread h | exhausted _ h =>
    rw [he] at h
    rw [← written_read d]
    exact congrArg (fun x => x.2.written) h.symm
  | unclosed | unopened => rfl

end Device

/-- A step is atomic when it fails and changes little when it does not, whatever table, tape, cursor and
hooks it is given. The calls that it makes are at most one. When it fails, tape and cursor are as they
were, no byte was taken, and the fault names the position of the cursor. Otherwise the status says
whether the new cursor stands behind the program. Behind the program a step is nothing at all; inside,
the cursor goes on behind a bracket's target if there is a jump due, and else by one, and the tape is
different in the place of the pointer or in the cell below it or not at all. A bracket is reported just
when a jump is due that has no target. -/
theorem Engine.step_atomic :
    (∀ (World : Type) (e : Engine World) (s : State) (w : World),
      (∀ l, e.recorded.step s (w, l) =
        ⟨(e.step s w).result, (e.step s w).state, (e.step s w).world, l ++ e.calls s w⟩) ∧
      (e.calls s w).length ≤ 1 ∧
      (∀ fault, (e.step s w).result = .error fault →
        (e.step s w).state = s ∧ Call.output (e.calls s w) = [] ∧
          fault.position? = some s.cursor.position) ∧
      (∀ st, (e.step s w).result = .ok st →
        (st = .halted ↔ e.program.size ≤ (e.step s w).state.cursor.position)) ∧
      (e.program.size ≤ s.cursor.position →
        e.step s w = ⟨.ok .halted, s, w⟩ ∧ e.calls s w = []) ∧
      (s.cursor.position < e.program.size → ∀ st, (e.step s w).result = .ok st →
        (∀ b, e.Due s b → ∃ target, e.jumps.target? s.cursor.position = some target ∧
          (e.step s w).state.cursor.position = target + 1) ∧
        ((∀ b, ¬ e.Due s b) → (e.step s w).state.cursor.position = s.cursor.position + 1) ∧
        ((e.step s w).state.tape = s.tape ∨ s.tape.Shifted (e.step s w).state.tape ∨
          s.tape.Rewritten (e.step s w).state.tape)) ∧
      ∀ p b, (e.step s w).result = .error (.unmatchedBracket p b) ↔
        p = s.cursor.position ∧ e.Due s b ∧ e.jumps.target? s.cursor.position = none) ∧
    ∀ (e : Engine Device) (s : State) (d : Device) (fault : Fault), e.hooks = Device.hooks →
      (e.step s d).result = .error fault → (e.step s d).world.written = d.written := by
  refine ⟨fun World e s w => ⟨e.step_recorded s w, e.length_calls_le s w, fun fault h => ?_,
    fun st h => status_of_step_ok h, fun hs => ⟨step_past hs w, ?_⟩, fun hs st h => ?_,
    e.unmatched_iff s w⟩, fun e s d fault he h => ?_⟩
  · obtain ⟨hstate, i, hi, hf⟩ := fails_of_step_error h
    refine ⟨hstate, ?_, hf.position_eq⟩
    simp only [calls, hi]
    exact hf.output_callsOf
  · have hi : e.program.get? s.cursor.position = none := Array.getElem?_eq_none hs
    simp only [calls, hi]
  · obtain ⟨hdue, hnot⟩ := cursor_of_step_ok hs h
    exact ⟨hdue, hnot, (e.edit_of_step s w).shape⟩
  · obtain ⟨-, i, -, hf⟩ := fails_of_step_error h
    exact Device.written_of_fails he hf

/-- `.[` with an empty table, on a cell that is 0: the byte is refused at the `.`, and at the `[` a jump is
due that has no target. Neither changes anything but the world. -/
theorem Engine.step_atomic_foreign :
    let e : Engine Device := ⟨.ofList [.output, .loopStart], ⟨#[]⟩, Device.hooks, .zero⟩
    let d : Device := { receptions := [.refuse "busy"], written := #[7] }
    ((e.step {} d).result = .error (.io 0 "busy") ∧ (e.step {} d).state = {} ∧
      (e.step {} d).world.written = #[7]) ∧
    (e.step { cursor := ⟨1⟩ } d).result = .error (.unmatchedBracket 1 .opening) ∧
      (e.step { cursor := ⟨1⟩ } d).state = { cursor := ⟨1⟩ } := by
  intro e d
  have hio : (e.step {} d).result = .error (.io 0 "busy") := by decide
  have hdue : e.Due { cursor := ⟨1⟩ } .opening := ⟨rfl, by decide⟩
  obtain ⟨-, -, hfail, -⟩ := (step_atomic.1 Device e {} d)
  obtain ⟨-, -, hfail', -, -, -, hunmatched⟩ := (step_atomic.1 Device e { cursor := ⟨1⟩ } d)
  have hun := (hunmatched 1 .opening).2 ⟨rfl, hdue, rfl⟩
  exact ⟨⟨hio, (hfail _ hio).1, step_atomic.2 e {} d _ rfl hio⟩, hun, (hfail' _ hun).1⟩

end TapeMachine
