import TapeMachine.Device
import TapeMachine.Proofs.Transcript

/-! What a step exchanges with the hooks. A step depends on the world only through the answers to the
calls that it makes, and the world that it leaves is the one behind those calls. So two engines for one
program, each with hooks and a world of its own, go through the same states as long as their hooks give
the same answers. A device answers from the first entry of its script. -/

namespace TapeMachine

variable {World World' : Type}

namespace Engine

/-- Two engines that differ in nothing but their hooks. -/
structure Alike (e : Engine World) (e' : Engine World') : Prop where
  program : e.program = e'.program
  jumps : e.jumps = e'.jumps
  eof : e.eof = e'.eof

/-- The world behind the calls of a step. -/
def after (e : Engine World) (s : State) (w : World) : World :=
  match e.program.get? s.cursor.position with
  | some .output => (e.hooks.write (Tape.outputByte s.tape.read) w).2
  | some .input => (e.hooks.read w).2
  | _ => w

/-- What an instruction comes to is decided by its calls and the answers to them. -/
theorem perform_congr {e : Engine World} {e' : Engine World'} (ha : e.Alike e') {i : Instruction} {s : State}
    {w : World} {w' : World'} (h : e.callsOf i s w = e'.callsOf i s w') :
    (e.perform i s w).result = (e'.perform i s w').result ∧
      (e.perform i s w).state = (e'.perform i s w').state := by
  cases i with
  | output =>
    simp only [callsOf, List.cons.injEq, Call.write.injEq, true_and, and_true] at h
    simp only [perform]
    rcases hx : e.hooks.write (Tape.outputByte s.tape.read) w with ⟨a, x⟩
    rcases hy : e'.hooks.write (Tape.outputByte s.tape.read) w' with ⟨b, y⟩
    rw [hx, hy] at h
    subst h
    cases a <;> exact ⟨rfl, rfl⟩
  | input =>
    simp only [callsOf, List.cons.injEq, Call.read.injEq, and_true] at h
    simp only [perform, endOfInput, ha.eof]
    rcases hx : e.hooks.read w with ⟨a, x⟩
    rcases hy : e'.hooks.read w' with ⟨b, y⟩
    rw [hx, hy] at h
    subst h
    cases a with
    | endOfInput => cases e'.eof <;> exact ⟨rfl, rfl⟩
    | _ => exact ⟨rfl, rfl⟩
  | loopStart | loopEnd =>
    simp only [perform, jump, ha.jumps]
    split_ifs <;> first | exact ⟨rfl, rfl⟩ | (split <;> exact ⟨rfl, rfl⟩)
  | _ => exact ⟨rfl, rfl⟩

theorem world_of_perform (e : Engine World) {i : Instruction} {s : State} (w : World)
    (hi : e.program.get? s.cursor.position = some i) : (e.perform i s w).world = e.after s w := by
  simp only [after, hi]
  cases i with
  | output =>
    simp only [perform]
    rcases e.hooks.write (Tape.outputByte s.tape.read) w with ⟨_ | _, w'⟩ <;> rfl
  | input =>
    simp only [perform, endOfInput]
    rcases e.hooks.read w with ⟨_ | _ | _, w'⟩
    · rfl
    · cases e.eof <;> rfl
    · rfl
  | loopStart | loopEnd =>
    simp only [perform, jump]
    split_ifs <;> first | rfl | (split <;> rfl)
  | _ => rfl

theorem world_of_step (e : Engine World) (s : State) (w : World) : (e.step s w).world = e.after s w := by
  cases hi : e.program.get? s.cursor.position with
  | none => simp only [step, after, hi]
  | some i =>
    have hw := e.world_of_perform w hi
    rcases hp : e.perform i s w with ⟨fault | _, s', w'⟩
    · rw [hp] at hw
      rw [step_fault hi hp, ← hw]
    · rw [hp] at hw
      rw [step_ok hi hp, ← hw]

/-- What a step comes to is decided by its calls and the answers to them. -/
theorem step_congr {e : Engine World} {e' : Engine World'} (ha : e.Alike e') {s : State} {w : World}
    {w' : World'} (h : e.calls s w = e'.calls s w') :
    (e.step s w).result = (e'.step s w').result ∧ (e.step s w).state = (e'.step s w').state := by
  unfold calls at h
  cases hi : e.program.get? s.cursor.position with
  | none =>
    have hi' := hi
    rw [ha.program] at hi'
    simp only [step, hi, hi', and_self]
  | some i =>
    have hi' := hi
    rw [ha.program] at hi'
    rw [hi, hi'] at h
    obtain ⟨hr, ht⟩ := perform_congr ha h
    rcases hx : e.perform i s w with ⟨r, t, x⟩
    rcases hy : e'.perform i s w' with ⟨r', t', y⟩
    rw [hx, hy] at hr ht
    simp only at hr ht
    subst hr ht
    cases r with
    | error fault =>
      rw [step_fault hi hx, step_fault hi' hy]
      exact ⟨rfl, rfl⟩
    | ok _ =>
      rw [step_ok hi hx, step_ok hi' hy]
      simp only [status, ha.program, and_self]

end Engine

/-! A device by the entry of its script that it answers from. -/

namespace Device

theorem read_nil {d : Device} (h : d.replies = []) :
    d.read = (d.afterwards, { d with reads := d.reads + 1 }) := by
  rw [read, h]

theorem read_cons {d : Device} {reply : Reading} {replies : List Reading} (h : d.replies = reply :: replies) :
    d.read = (reply, { d with replies := replies, reads := d.reads + 1 }) := by
  rw [read, h]

theorem write_nil {d : Device} (h : d.receptions = []) (b : UInt8) :
    d.write b = (.accepted, { d with written := d.written.push b }) := by
  rw [write, h]

/-- What an entry of the script answers to a byte, and what it does with it. -/
def receive (d : Device) (b : UInt8) : Reception → Writing × Device
  | .accept => (.accepted, { d with written := d.written.push b })
  | .refuse reason => (.failure reason, d)
  | .acceptAndCancel => (.accepted, { d with written := d.written.push b, cancelled := true })

theorem write_cons {d : Device} {r : Reception} {rest : List Reception} (h : d.receptions = r :: rest)
    (b : UInt8) : d.write b = { d with receptions := rest }.receive b r := by
  rw [write, h]
  cases r <;> rfl

end Device

end TapeMachine
