import TapeMachine.Proofs.Cancel
import TapeMachine.Proofs.Dispatch
import TapeMachine.Proofs.Residue
import TapeMachine.Proofs.Simulation

/-! Runs that come back to a state they have been in. The state has come back if a program cannot tell it
from the earlier one, although other cells may hold a stored 0. As long as nothing is read and every byte is
taken, what a step does is decided by the state. So the run goes from the later point the way it went from
the earlier one, comes back once more, and never gets to an end. -/

namespace TapeMachine

/-- Tapes that answer alike at every address, whatever they store. -/
structure Tape.Same (t t' : Tape) : Prop where
  width : t'.width = t.width
  pointer : t'.pointer = t.pointer
  get (a : Int64) : t'.get a = t.get a

theorem Tape.carries_same : Tape.Carries Tape.Same Tape.Same where
  width h := h.width
  read h := by rw [read, read, h.pointer, h.get]
  keep h := h
  move {_ _ d} h _ := ⟨h.width, congrArg (· + d) h.pointer, h.get⟩
  write h v := ⟨h.width, h.pointer, fun a => by rw [get_write, get_write, h.pointer, h.get]⟩

variable {World : Type}

def Hooks.Accepts (h : Hooks World) (w : World) : Prop := ∀ b, (h.write b w).1 = .accepted

namespace Engine

/-- Where nothing is read and every byte is taken, the world has no say in the calls of a step. -/
theorem calls_accepted {e : Engine World} {s : State} {w w' : World} (hw : e.hooks.Accepts w)
    (hw' : e.hooks.Accepts w') (hi : e.program.get? s.cursor.position ≠ some .input) :
    e.calls s w = e.calls s w' := by
  unfold calls
  cases h : e.program.get? s.cursor.position with
  | none => rfl
  | some i =>
    cases i with
    | input => exact absurd h hi
    | output => simp only [callsOf, hw _, hw' _]
    | _ => rfl

theorem step_accepted {e : Engine World} {s s' : State} {w w' : World} (hs : s.Related Tape.Same s')
    (hw : e.hooks.Accepts w) (hw' : e.hooks.Accepts w')
    (hi : e.program.get? s.cursor.position ≠ some .input) :
    (e.step s' w').result = (e.step s w).result ∧
      (e.step s w).state.Related Tape.Same (e.step s' w').state := by
  obtain ⟨hresult, -, hstate⟩ := step_related Tape.carries_same hs e w
  rw [← hs.cursor] at hi
  have halike : e.Alike e := ⟨rfl, rfl, rfl⟩
  obtain ⟨hresult', hstate'⟩ := step_congr halike (calls_accepted hw' hw hi)
  rw [hresult', hstate']
  exact ⟨hresult, hstate⟩

theorem next_accepted {e : Engine World} {r r' : Run World} (hr : r.ending = .unfinished)
    (hr' : r'.ending = .unfinished) (hs : r.state.Related Tape.Same r'.state)
    (hw : e.hooks.Accepts r.world) (hw' : e.hooks.Accepts r'.world)
    (hi : e.program.get? r.state.cursor.position ≠ some .input) :
    (e.next r').ending = (e.next r).ending ∧ (e.next r).state.Related Tape.Same (e.next r').state := by
  obtain ⟨hresult, hstate⟩ := step_accepted hs hw hw' hi
  obtain ⟨_, k, s, w⟩ := r
  obtain ⟨_, k', s', w'⟩ := r'
  obtain rfl : _ = Ending.unfinished := hr
  obtain rfl : _ = Ending.unfinished := hr'
  rcases h : e.step s w with ⟨result, s₁, w₁⟩
  rcases h' : e.step s' w' with ⟨result', s₁', w₁'⟩
  rw [h, h'] at hresult hstate
  obtain rfl : result' = result := hresult
  cases result' with
  | error fault =>
    rw [next_fault h, next_fault h']
    exact ⟨rfl, hstate⟩
  | ok status =>
    rw [next_ok h, next_ok h']
    exact ⟨rfl, hstate⟩

end Engine

namespace Machine

/-- Wherever the run without a control gets to, the hooks take whatever byte is handed over. -/
def NeverRefused (m : Machine) (mode : Mode) (hooks : Hooks World) (w : World) : Prop :=
  ∀ k, hooks.Accepts (m.run mode hooks {} k w).world

theorem neverRefused_of_keeps {hooks : Hooks World} {I : World → Prop} (h : hooks.Keeps I)
    (hI : ∀ w, I w → hooks.Accepts w) (m : Machine) (mode : Mode) {w : World} (hw : I w) :
    m.NeverRefused mode hooks w := fun k =>
  hI _ (Engine.keeps_run (e := m.engine hooks mode.eof) h {} k (Status.initial m.program) 0
    { tape := { width := mode.width } } hw)

section run

variable {m : Machine} {mode : Mode} {hooks : Hooks World} {w : World}

theorem run_next (m : Machine) (mode : Mode) (hooks : Hooks World) (n : ℕ) (w : World) :
    m.run mode hooks {} (n + 1) w = (m.engine hooks mode.eof).next (m.run mode hooks {} n w) := by
  rw [run_free, run_free, Function.iterate_succ_apply']

theorem recurs (hout : m.NeverRefused mode hooks w) {s t : ℕ} (hst : s < t)
    (ht : (m.run mode hooks {} t w).ending = .unfinished)
    (hback : (m.run mode hooks {} s w).state.Related Tape.Same (m.run mode hooks {} t w).state)
    (hread : ∀ k, s ≤ k → k < t →
      m.program.get? (m.run mode hooks {} k w).state.cursor.position ≠ some .input) (j : ℕ) :
    (m.run mode hooks {} (t + j) w).ending = .unfinished ∧
      (m.run mode hooks {} (s + j) w).state.Related Tape.Same (m.run mode hooks {} (t + j) w).state ∧
      m.program.get? (m.run mode hooks {} (s + j) w).state.cursor.position ≠ some .input := by
  induction j using Nat.strong_induction_on with
  | _ j ih =>
    -- the earlier of the two points is before `t`, or it is the later one of an earlier pair
    have hhere : (m.run mode hooks {} (s + j) w).ending = .unfinished ∧
        m.program.get? (m.run mode hooks {} (s + j) w).state.cursor.position ≠ some .input := by
      by_cases hj : s + j < t
      · exact ⟨unfinished_of_le ht hj.le, hread _ (Nat.le_add_right s j) hj⟩
      · obtain ⟨i, hi⟩ := Nat.exists_eq_add_of_le (Nat.not_lt.1 hj)
        obtain ⟨hu, hsame, hinput⟩ := ih i (by omega)
        rw [hi]
        exact ⟨hu, by rwa [hsame.cursor]⟩
    obtain ⟨hhere, hinput⟩ := hhere
    cases j with
    | zero => exact ⟨ht, hback, hinput⟩
    | succ i =>
      obtain ⟨hu, hsame, hi⟩ := ih i i.lt_succ_self
      have hbefore : (m.run mode hooks {} (s + i) w).ending = .unfinished := unfinished_of_le hhere (by omega)
      obtain ⟨hend, hstate⟩ := Engine.next_accepted (e := m.engine hooks mode.eof) hbefore hu hsame (hout _)
        (hout _) hi
      rw [← run_next, ← run_next] at hend hstate
      exact ⟨hend.trans hhere, hstate, hinput⟩

end run

/-- A state that comes back is never left for good. Let the run without a limit, on hooks that read anything
but take every byte, get to a point after `s` steps and to one after `t` where the cursor, the pointer and the
value at every address are the same, with no input instruction executed in between. Then the run goes on
after any number of steps, so it neither halts nor fails, and under any limit it is stopped by that. -/
theorem recurrence_never_ends (m : Machine) (mode : Mode) (hooks : Hooks World) (w : World)
    (hout : m.NeverRefused mode hooks w) {s t : ℕ} (hst : s < t)
    (ht : (m.run mode hooks {} t w).ending = .unfinished)
    (hcursor : (m.run mode hooks {} t w).state.cursor = (m.run mode hooks {} s w).state.cursor)
    (hpointer : (m.run mode hooks {} t w).state.tape.pointer = (m.run mode hooks {} s w).state.tape.pointer)
    (hget : ∀ a, (m.run mode hooks {} t w).state.tape.get a = (m.run mode hooks {} s w).state.tape.get a)
    (hread : ∀ k, s ≤ k → k < t →
      m.program.get? (m.run mode hooks {} k w).state.cursor.position ≠ some .input) :
    (∀ n, (m.run mode hooks {} n w).ending = .unfinished) ∧ (∀ r, ¬ m.Returns mode hooks {} w r) ∧
    ∀ flag, m.NeverSet mode hooks w flag → ∀ n, ∃ s' w',
      m.Returns mode hooks ⟨some n, flag⟩ w ⟨.stopped (.stepLimitExceeded n), n, s', w'⟩ := by
  have hwidth : (m.run mode hooks {} t w).state.tape.width = (m.run mode hooks {} s w).state.tape.width := by
    rw [run_free, run_free, Engine.width_iterate, Engine.width_iterate]
  have hgoes (n : ℕ) : (m.run mode hooks {} n w).ending = .unfinished := by
    have hlater := (recurs hout hst ht ⟨⟨hwidth, hpointer, hget⟩, hcursor⟩ hread n).1
    exact unfinished_of_le hlater (Nat.le_add_left n t)
  refine ⟨hgoes, ?_, fun flag hflag n => ?_⟩
  · rintro r ⟨hover, fuel, rfl⟩
    exact hover (hgoes fuel)
  · have hret := hflag.returns_limited n
    rw [Run.cut_unfinished (hgoes n), steps_of_unfinished (hgoes n)] at hret
    exact ⟨_, _, hret⟩

/-- The program `+[>+-<.]` writes the same byte for ever. After 8 steps it is where it was after 2, but has
touched one cell more. -/
theorem recurrence_never_ends_writing : ∃ m : Machine, m.program = .ofSource "+[>+-<.]" ∧
    m.NeverRefused {} Device.hooks {} ∧ m.NeverSet {} Device.hooks {} Device.cancelled ∧
    (m.run {} Device.hooks {} 2 {}).state.tape.touched = 1 ∧
    (m.run {} Device.hooks {} 8 {}).state.tape.touched = 2 ∧
    (∀ n, (m.run {} Device.hooks {} n {}).ending = .unfinished) ∧
    ∀ n, ∃ s' w', m.Returns {} Device.hooks ⟨some n, Device.cancelled⟩ {}
      ⟨.stopped (.stepLimitExceeded n), n, s', w'⟩ := by
  let m : Machine :=
    ⟨.ofSource "+[>+-<.]", ⟨#[none, some 7, none, none, none, none, none, some 1]⟩, by decide⟩
  have hkeeps : Device.hooks.Keeps fun d => d.receptions = [] ∧ d.cancelled = false := by
    constructor
    · rintro d ⟨h, hc⟩
      simp only [Device.hooks, Device.read]
      split <;> exact ⟨h, hc⟩
    · rintro b d ⟨h, hc⟩
      simp only [Device.hooks, Device.write_nil h]
      exact ⟨h, hc⟩
  have hout : m.NeverRefused {} Device.hooks {} := by
    refine neverRefused_of_keeps hkeeps (fun d h b => ?_) m {} ⟨rfl, rfl⟩
    simp only [Device.hooks, Device.write_nil h.1]
  have hflag : m.NeverSet {} Device.hooks {} Device.cancelled := fun k =>
    (Engine.keeps_run (e := m.engine Device.hooks .zero) hkeeps {} k .running 0 {} ⟨rfl, rfl⟩).2
  have hget (a : Int64) : (m.run {} Device.hooks {} 8 {}).state.tape.get a =
      (m.run {} Device.hooks {} 2 {}).state.tape.get a := by
    show ((((Tape.adjust {} 1).move 1).write 1).write 0).get a = (Tape.adjust {} 1).get a
    rw [Tape.get_write, Tape.get_write]
    by_cases ha : a = 1
    · subst ha
      decide
    · exact (if_neg ha).trans (if_neg ha)
  have hread : ∀ k, 2 ≤ k → k < 8 →
      m.program.get? (m.run {} Device.hooks {} k {}).state.cursor.position ≠ some .input := by
    intro k hk hk'
    interval_cases k <;> decide
  obtain ⟨hgoes, -, hlimit⟩ := recurrence_never_ends m {} Device.hooks {} hout (s := 2) (t := 8)
    (by decide) rfl rfl rfl hget hread
  exact ⟨m, rfl, hout, hflag, by decide, by decide, hgoes, hlimit _ hflag⟩

end Machine

end TapeMachine
