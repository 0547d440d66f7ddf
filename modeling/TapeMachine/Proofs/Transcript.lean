import TapeMachine.Proofs.Run

/-! Transcripts of the hooks. Any hooks can be made to keep a list of their calls beside their world.
This changes nothing about a run but adds the calls of each step, of which there are none unless the
instruction is an input or an output, so the transcript of a run only ever grows. -/

namespace TapeMachine

/-- A call of a hook, with the answer. -/
inductive Call where
  | read (reply : Reading)
  | write (value : UInt8) (reply : Writing)
deriving DecidableEq, Repr

namespace Call

/-- The bytes that were accepted, in order. -/
def output (calls : List Call) : List UInt8 :=
  calls.filterMap fun
    | write value .accepted => some value
    | _ => none

theorem output_mono {a b : List Call} (h : a <+: b) : output a <+: output b := by
  obtain ⟨c, rfl⟩ := h
  rw [output, output, List.filterMap_append]
  exact List.prefix_append _ _

end Call

variable {World : Type}

/-- The same hooks with a transcript of their calls, oldest first. -/
def Hooks.recorded (h : Hooks World) : Hooks (World × List Call) where
  read x := ((h.read x.1).1, (h.read x.1).2, x.2 ++ [.read (h.read x.1).1])
  write b x := ((h.write b x.1).1, (h.write b x.1).2, x.2 ++ [.write b (h.write b x.1).1])

/-- The same run without the transcript. -/
def Run.plain (r : Run (World × List Call)) : Run World := ⟨r.ending, r.steps, r.state, r.world.1⟩

namespace Engine

def recorded (e : Engine World) : Engine (World × List Call) :=
  ⟨e.program, e.jumps, e.hooks.recorded, e.eof⟩

/-- The calls that performing an instruction makes. -/
def callsOf (e : Engine World) (i : Instruction) (s : State) (w : World) : List Call :=
  match i with
  | .output => [.write (Tape.outputByte s.tape.read) (e.hooks.write (Tape.outputByte s.tape.read) w).1]
  | .input => [.read (e.hooks.read w).1]
  | _ => []

/-- The calls that a step makes. -/
def calls (e : Engine World) (s : State) (w : World) : List Call :=
  match e.program.get? s.cursor.position with
  | none => []
  | some i => e.callsOf i s w

theorem perform_recorded (e : Engine World) (i : Instruction) (s : State) (w : World) (l : List Call) :
    e.recorded.perform i s (w, l) =
      ⟨(e.perform i s w).result, (e.perform i s w).state, (e.perform i s w).world, l ++ e.callsOf i s w⟩ := by
  cases i with
  | output =>
    simp only [perform, recorded, Hooks.recorded, callsOf]
    rcases e.hooks.write (Tape.outputByte s.tape.read) w with ⟨_ | _, w'⟩ <;> rfl
  | input =>
    simp only [perform, recorded, Hooks.recorded, callsOf, endOfInput]
    rcases e.hooks.read w with ⟨_ | _ | _, w'⟩
    · rfl
    · cases e.eof <;> rfl
    · rfl
  | loopStart | loopEnd =>
    simp only [perform, recorded, callsOf, List.append_nil, jump]
    split_ifs <;> first | rfl | (split <;> rfl)
  | _ => simp only [perform, callsOf, List.append_nil]

theorem step_recorded (e : Engine World) (s : State) (w : World) (l : List Call) :
    e.recorded.step s (w, l) =
      ⟨(e.step s w).result, (e.step s w).state, (e.step s w).world, l ++ e.calls s w⟩ := by
  have hprog : e.recorded.program = e.program := rfl
  unfold step calls
  rw [hprog]
  cases hi : e.program.get? s.cursor.position with
  | none => simp
  | some i =>
    simp only [perform_recorded]
    rcases e.perform i s w with ⟨_ | _, s', w'⟩ <;> rfl

theorem next_recorded (e : Engine World) (r : Run (World × List Call)) :
    (e.recorded.next r).plain = e.next r.plain ∧ r.world.2 <+: (e.recorded.next r).world.2 := by
  obtain ⟨ending, k, s, w, l⟩ := r
  cases ending with
  | unfinished =>
    have hrec := step_recorded e s w l
    rcases hs : e.step s w with ⟨fault | status, s', w'⟩
    · rw [hs] at hrec
      rw [next_fault hrec]
      exact ⟨(next_fault hs k).symm, List.prefix_append _ _⟩
    · rw [hs] at hrec
      rw [next_ok hrec]
      exact ⟨(next_ok hs k).symm, List.prefix_append _ _⟩
  | _ => exact ⟨rfl, List.prefix_refl _⟩

theorem iterate_recorded (e : Engine World) (n : ℕ) (r : Run (World × List Call)) :
    (e.recorded.next^[n] r).plain = e.next^[n] r.plain := by
  induction n with
  | zero => rfl
  | succ n ih => rw [Function.iterate_succ_apply', (next_recorded _ _).1, ih, Function.iterate_succ_apply']

theorem transcript_mono (e : Engine World) (r : Run (World × List Call)) {m n : ℕ} (h : m ≤ n) :
    (e.recorded.next^[m] r).world.2 <+: (e.recorded.next^[n] r).world.2 := by
  induction n, h using Nat.le_induction with
  | base => exact List.prefix_refl _
  | succ n _ ih =>
    rw [Function.iterate_succ_apply']
    exact ih.trans (next_recorded _ _).2

end Engine

namespace Machine

theorem run_recorded (m : Machine) (mode : Mode) (hooks : Hooks World) (n : ℕ) (w : World)
    (l : List Call) : (m.run mode hooks.recorded {} n (w, l)).plain = m.run mode hooks {} n w := by
  rw [run_free, run_free]
  exact Engine.iterate_recorded (m.engine hooks mode.eof) n (m.start mode hooks.recorded (w, l))

theorem run_transcript_mono (m : Machine) (mode : Mode) (hooks : Hooks World) {n n' : ℕ} (h : n ≤ n')
    (w : World) (l : List Call) : (m.run mode hooks.recorded {} n (w, l)).world.2 <+:
      (m.run mode hooks.recorded {} n' (w, l)).world.2 := by
  rw [run_free, run_free]
  exact Engine.transcript_mono (m.engine hooks mode.eof) _ h

end Machine

end TapeMachine
