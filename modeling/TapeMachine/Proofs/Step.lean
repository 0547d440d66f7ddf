import TapeMachine.Machine
import Mathlib.Tactic

/-! What a step comes to, and a run step by step. `Engine.next` takes one more step of a run that is
not over and leaves any other as it is, so `next^[n]` is the first `n` steps of a run, or all of it if
it is over before. -/

namespace TapeMachine

def Status.ending : Status → Ending
  | .running => .unfinished
  | .halted => .halted

/-- What an instruction makes of a tape: it keeps it, moves the pointer to a neighbour, adds to the current
cell, or stores a byte there. -/
inductive Tape.Edit (t : Tape) : Tape → Prop
  | keep : Edit t t
  | move {d : Int64} (hd : d = 1 ∨ d = -1) : Edit t (t.move d)
  | adjust (d : Int64) : Edit t (t.adjust d)
  | store (b : UInt8) : Edit t (t.write (Int64.ofNat b.toNat))

theorem Tape.Edit.width_eq {t t' : Tape} (h : t.Edit t') : t'.width = t.width := by
  cases h <;> rfl

variable {World : Type}

/-- The program has halted or failed, or a control has stopped it. -/
def Run.Over (r : Run World) : Prop := r.ending ≠ .unfinished

theorem over_halted (k : ℕ) (s : State) (w : World) : Run.Over ⟨.halted, k, s, w⟩ := by
  simp [Run.Over]

theorem over_stopped (fault : Fault) (k : ℕ) (s : State) (w : World) :
    Run.Over ⟨.stopped fault, k, s, w⟩ := by
  simp [Run.Over]

namespace Engine

def status (e : Engine World) (s : State) : Status :=
  if s.cursor.isPast e.program.size then .halted else .running

/-- A run that stands in a state after so many steps. -/
def stand (e : Engine World) (steps : ℕ) (s : State) (w : World) : Run World :=
  ⟨(e.status s).ending, steps, s, w⟩

/-- One more step of a run that is not over. -/
def next (e : Engine World) (r : Run World) : Run World :=
  match r.ending with
  | .unfinished =>
    match e.step r.state r.world with
    | ⟨.error fault, s, w⟩ => ⟨.stopped fault, r.steps, s, w⟩
    | ⟨.ok status, s, w⟩ => ⟨status.ending, r.steps + 1, s, w⟩
  | _ => r

theorem status_running {e : Engine World} {s : State} :
    e.status s = .running ↔ s.cursor.position < e.program.size := by
  unfold status Cursor.isPast
  split_ifs with h <;> simp at h ⊢ <;> omega

theorem status_halted {e : Engine World} {s : State} :
    e.status s = .halted ↔ e.program.size ≤ s.cursor.position := by
  unfold status Cursor.isPast
  split_ifs with h <;> simp at h ⊢ <;> omega

theorem status_initial (e : Engine World) (t : Tape) :
    e.status { tape := t } = Status.initial e.program := by
  unfold status Cursor.isPast Status.initial Program.isEmpty Program.size
  cases h : e.program.instructions.isEmpty
  · rw [Array.isEmpty_eq_false_iff, ne_eq, ← Array.size_eq_zero_iff] at h
    simp [h]
  · rw [Array.isEmpty_iff] at h
    simp [h]

theorem stand_running {e : Engine World} {s : State} (h : s.cursor.position < e.program.size) (k : ℕ)
    (w : World) : e.stand k s w = ⟨.unfinished, k, s, w⟩ := by
  rw [stand, status_running.2 h]
  rfl

theorem stand_halted {e : Engine World} {s : State} (h : e.program.size ≤ s.cursor.position) (k : ℕ)
    (w : World) : e.stand k s w = ⟨.halted, k, s, w⟩ := by
  rw [stand, status_halted.2 h]
  rfl

/-! What a step comes to, by what performing its instruction comes to. -/

theorem step_past {e : Engine World} {s : State} (h : e.program.size ≤ s.cursor.position) (w : World) :
    e.step s w = ⟨.ok .halted, s, w⟩ := by
  have : e.program.get? s.cursor.position = none := Array.getElem?_eq_none h
  rw [step, this]

theorem step_fault {e : Engine World} {s s' : State} {i : Instruction} {w w' : World} {fault : Fault}
    (hi : e.program.get? s.cursor.position = some i) (hp : e.perform i s w = ⟨.error fault, s', w'⟩) :
    e.step s w = ⟨.error fault, s', w'⟩ := by
  simp only [step, hi, hp]

theorem step_ok {e : Engine World} {s s' : State} {i : Instruction} {w w' : World}
    (hi : e.program.get? s.cursor.position = some i) (hp : e.perform i s w = ⟨.ok (), s', w'⟩) :
    e.step s w = ⟨.ok (e.status ⟨s'.tape, s'.cursor.advance⟩), ⟨s'.tape, s'.cursor.advance⟩, w'⟩ := by
  simp only [step, hi, hp, status]

/-- An instruction that fails does so before it has changed tape or cursor. -/
theorem state_of_perform {e : Engine World} {i : Instruction} {s s' : State} {w w' : World} {fault : Fault}
    (h : e.perform i s w = ⟨.error fault, s', w'⟩) : s' = s := by
  cases i with
  | output =>
    simp only [perform] at h
    split at h <;> cases h
    rfl
  | input =>
    simp only [perform] at h
    split at h
    · cases h
    · cases he : e.eof <;> simp only [endOfInput, he] at h <;> cases h
      rfl
    · cases h
      rfl
  | loopStart | loopEnd =>
    simp only [perform, jump] at h
    split_ifs at h <;> first | (split at h <;> cases h; rfl) | cases h
  | _ => cases h

theorem lt_size_of_get? {p : Program} {k : ℕ} {i : Instruction} (h : p.get? k = some i) : k < p.size := by
  obtain ⟨hk, -⟩ := Array.getElem?_eq_some_iff.1 h
  exact hk

/-- A step fails, or leaves a state whose cursor alone says whether the program has halted. -/
theorem step_cases (e : Engine World) (s : State) (w : World) :
    (∃ fault w', e.step s w = ⟨.error fault, s, w'⟩) ∨
    (∃ s' w', e.step s w = ⟨.ok (e.status s'), s', w'⟩) := by
  cases hi : e.program.get? s.cursor.position with
  | none =>
    have h : e.program.size ≤ s.cursor.position := Array.getElem?_eq_none_iff.1 hi
    exact .inr ⟨s, w, by rw [step_past h, status_halted.2 h]⟩
  | some i =>
    rcases hp : e.perform i s w with ⟨fault | _, s', w'⟩
    · obtain rfl := state_of_perform hp
      exact .inl ⟨fault, w', step_fault hi hp⟩
    · exact .inr ⟨_, w', step_ok hi hp⟩

/-! What a step does to the tape. -/

theorem edit_of_jump (e : Engine World) (b : Bracket) (s : State) (w : World) :
    s.tape.Edit (e.jump b s w).state.tape := by
  unfold jump
  split <;> exact .keep

theorem edit_of_endOfInput (e : Engine World) (s : State) (w : World) :
    s.tape.Edit (e.endOfInput s w).state.tape := by
  unfold endOfInput
  split
  · exact .store 0
  · exact .keep
  · exact .keep

theorem edit_of_perform (e : Engine World) (i : Instruction) (s : State) (w : World) :
    s.tape.Edit (e.perform i s w).state.tape := by
  cases i with
  | right => exact .move (.inl rfl)
  | left => exact .move (.inr rfl)
  | increment | decrement => exact .adjust _
  | output =>
    simp only [perform]
    split <;> exact .keep
  | input =>
    simp only [perform]
    split
    · exact .store _
    · exact e.edit_of_endOfInput s _
    · exact .keep
  | loopStart =>
    simp only [perform]
    split_ifs
    · exact e.edit_of_jump .opening s w
    · exact .keep
  | loopEnd =>
    simp only [perform]
    split_ifs
    · exact .keep
    · exact e.edit_of_jump .closing s w

theorem edit_of_step (e : Engine World) (s : State) (w : World) :
    s.tape.Edit (e.step s w).state.tape := by
  cases hi : e.program.get? s.cursor.position with
  | none =>
    rw [step, hi]
    exact .keep
  | some i =>
    have h := e.edit_of_perform i s w
    rcases hp : e.perform i s w with ⟨fault | _, s', w'⟩ <;> rw [hp] at h
    · rw [step_fault hi hp]
      exact h
    · rw [step_ok hi hp]
      exact h

/-! One step of a run. -/

theorem next_of_over {e : Engine World} {r : Run World} (h : r.Over) : e.next r = r := by
  unfold next
  split
  · exact absurd ‹_› h
  · rfl

theorem next_fault {e : Engine World} {s s' : State} {w w' : World} {fault : Fault}
    (h : e.step s w = ⟨.error fault, s', w'⟩) (k : ℕ) :
    e.next ⟨.unfinished, k, s, w⟩ = ⟨.stopped fault, k, s', w'⟩ := by
  simp only [next, h]

theorem next_ok {e : Engine World} {s s' : State} {w w' : World} {status : Status}
    (h : e.step s w = ⟨.ok status, s', w'⟩) (k : ℕ) :
    e.next ⟨.unfinished, k, s, w⟩ = ⟨status.ending, k + 1, s', w'⟩ := by
  simp only [next, h]

/-- A step that performs its instruction moves on to the state behind it. -/
theorem next_stand {e : Engine World} {s s' : State} {i : Instruction} {w w' : World}
    (hi : e.program.get? s.cursor.position = some i) (hp : e.perform i s w = ⟨.ok (), s', w'⟩) (k : ℕ) :
    e.next (e.stand k s w) = e.stand (k + 1) ⟨s'.tape, s'.cursor.advance⟩ w' := by
  rw [stand_running (lt_size_of_get? hi), next_ok (step_ok hi hp), stand]

theorem next_stand_fault {e : Engine World} {s s' : State} {i : Instruction} {w w' : World} {fault : Fault}
    (hi : e.program.get? s.cursor.position = some i) (hp : e.perform i s w = ⟨.error fault, s', w'⟩) (k : ℕ) :
    e.next (e.stand k s w) = ⟨.stopped fault, k, s', w'⟩ := by
  rw [stand_running (lt_size_of_get? hi), next_fault (step_fault hi hp)]

theorem iterate_of_over {e : Engine World} {r : Run World} (h : r.Over) (n : ℕ) : e.next^[n] r = r :=
  Function.iterate_fixed (next_of_over h) n

/-- A run that is over after `m` steps is the same after `n`, later or earlier, if it is over then. -/
theorem iterate_of_le {e : Engine World} {r : Run World} {m n : ℕ} (h : (e.next^[m] r).Over)
    (hmn : m ≤ n) : e.next^[n] r = e.next^[m] r := by
  obtain ⟨d, rfl⟩ := Nat.exists_eq_add_of_le' hmn
  rw [Function.iterate_add_apply, iterate_of_over h]

theorem iterate_unique {e : Engine World} {r : Run World} {m n : ℕ} (hm : (e.next^[m] r).Over)
    (hn : (e.next^[n] r).Over) : e.next^[m] r = e.next^[n] r := by
  rcases Nat.le_total m n with h | h
  · exact (iterate_of_le hm h).symm
  · exact iterate_of_le hn h

/-- How far a run is after `n` iterations: still going after as many steps, halted by the last step it
counts, or stopped by the step behind that. -/
theorem iterate_cases (e : Engine World) {r : Run World} (hr : r.ending = .unfinished) (n : ℕ) :
    ((e.next^[n] r).ending = .unfinished ∧ (e.next^[n] r).steps = r.steps + n) ∨
    ∃ j < n, (e.next^[j] r).ending = .unfinished ∧ e.next^[n] r = e.next^[j + 1] r ∧
      ((e.next^[n] r).ending = .halted ∧ (e.next^[n] r).steps = r.steps + j + 1 ∨
        ∃ fault, (e.next^[n] r).ending = .stopped fault ∧ (e.next^[n] r).steps = r.steps + j) := by
  induction n with
  | zero => exact .inl ⟨hr, rfl⟩
  | succ n ih =>
    rcases ih with ⟨h1, h2⟩ | ⟨j, hj, h1, h2, h3⟩
    · rw [Function.iterate_succ_apply']
      generalize hx : e.next^[n] r = x at h1 h2
      obtain ⟨_, k, s, w⟩ := x
      simp only at h1 h2
      subst h1 h2
      rcases step_cases e s w with ⟨fault, w', hs⟩ | ⟨s', w', hs⟩
      · rw [next_fault hs]
        refine .inr ⟨n, n.lt_succ_self, by rw [hx], ?_, .inr ⟨fault, rfl, rfl⟩⟩
        rw [Function.iterate_succ_apply', hx, next_fault hs]
      · rw [next_ok hs]
        cases hst : e.status s' with
        | running => exact .inl ⟨rfl, rfl⟩
        | halted =>
          refine .inr ⟨n, n.lt_succ_self, by rw [hx], ?_, .inl ⟨rfl, rfl⟩⟩
          rw [Function.iterate_succ_apply', hx, next_ok hs, hst]
    · have hover : (e.next^[n] r).Over := by
        unfold Run.Over
        rcases h3 with ⟨h3, -⟩ | ⟨fault, h3, -⟩ <;> rw [h3] <;> simp
      have hsame : e.next^[n + 1] r = e.next^[n] r := iterate_of_le hover n.le_succ
      rw [hsame]
      exact .inr ⟨j, by omega, h1, h2, h3⟩

end Engine

end TapeMachine
