import TapeMachine.Proofs.Transcript
import TapeMachine.Device

/-! The step limit. A run with a limit `n` and a request to stop that never comes is the first `n`
steps of the run without them, and is told that it exceeded its limit just when that run was still
going. -/

namespace TapeMachine

variable {World : Type}

/-- A run that was still going has exceeded the limit. -/
def Run.cut (limit : ℕ) (r : Run World) : Run World :=
  match r.ending with
  | .unfinished => { r with ending := .stopped (.stepLimitExceeded limit) }
  | _ => r

theorem Run.cut_unfinished {r : Run World} (h : r.ending = .unfinished) (n : ℕ) :
    r.cut n = { r with ending := .stopped (.stepLimitExceeded n) } := by
  unfold cut
  rw [h]

theorem Run.cut_of_over {r : Run World} (h : r.Over) (n : ℕ) : r.cut n = r := by
  unfold cut
  split
  · exact absurd ‹_› h
  · rfl

theorem Run.over_cut (r : Run World) (n : ℕ) : (r.cut n).Over := by
  by_cases h : r.ending = .unfinished
  · rw [r.cut_unfinished h]
    exact over_stopped _ _ _ _
  · rw [r.cut_of_over h]
    exact h

theorem Run.world_cut (r : Run World) (n : ℕ) : (r.cut n).world = r.world := by
  unfold cut
  split <;> rfl

namespace Machine

theorem run_over_of_le {m : Machine} {mode : Mode} {hooks : Hooks World} {w : World} {j k : ℕ}
    (h : (m.run mode hooks {} j w).Over) (hjk : j ≤ k) :
    m.run mode hooks {} k w = m.run mode hooks {} j w := by
  rw [run_free] at h ⊢
  rw [run_free]
  exact Engine.iterate_of_le h hjk

/-- How far a run without a control is after `n` steps: still going, after as many; halted by the last
step that it counts; or stopped by the step behind that. -/
theorem run_cases (m : Machine) (mode : Mode) (hooks : Hooks World) (w : World) (n : ℕ) :
    ((m.run mode hooks {} n w).ending = .unfinished ∧ (m.run mode hooks {} n w).steps = n) ∨
    ((m.run mode hooks {} n w).ending = .halted ∧ ∃ j ≤ n, (m.run mode hooks {} n w).steps = j ∧
      m.run mode hooks {} n w = m.run mode hooks {} j w) ∨
    ∃ fault, (m.run mode hooks {} n w).ending = .stopped fault ∧ ∃ j < n,
      (m.run mode hooks {} n w).steps = j ∧ m.run mode hooks {} n w = m.run mode hooks {} (j + 1) w := by
  simp only [run_free]
  have hzero : (m.start mode hooks w).steps = 0 := rfl
  cases hst : (m.engine hooks mode.eof).status { tape := { width := mode.width } } with
  | halted =>
    have hhalt : (m.start mode hooks w).ending = .halted := by rw [start, Engine.stand, hst]; rfl
    have hover : (m.start mode hooks w).Over := by simp [Run.Over, hhalt]
    rw [Engine.iterate_of_over hover]
    exact .inr (.inl ⟨hhalt, 0, Nat.zero_le n, hzero, rfl⟩)
  | running =>
    have hgo : (m.start mode hooks w).ending = .unfinished := by rw [start, Engine.stand, hst]; rfl
    rcases Engine.iterate_cases (m.engine hooks mode.eof) hgo n with
      ⟨hu, hk⟩ | ⟨j, hj, -, heq, ⟨hend, hk⟩ | ⟨fault, hend, hk⟩⟩
    · exact .inl ⟨hu, by omega⟩
    · exact .inr (.inl ⟨hend, j + 1, hj, by omega, heq⟩)
    · exact .inr (.inr ⟨fault, hend, j, hj, by omega, heq⟩)

theorem steps_of_unfinished {m : Machine} {mode : Mode} {hooks : Hooks World} {w : World} {n : ℕ}
    (h : (m.run mode hooks {} n w).ending = .unfinished) : (m.run mode hooks {} n w).steps = n := by
  rcases m.run_cases mode hooks w n with ⟨-, hk⟩ | ⟨hend, -⟩ | ⟨fault, hend, -⟩
  · exact hk
  · simp [hend] at h
  · simp [hend] at h

/-- A run is over as soon as it has taken the steps it ends with, and one more if the last failed. -/
theorem Returns.run_eq {m : Machine} {mode : Mode} {hooks : Hooks World} {w : World} {r : Run World}
    (h : m.Returns mode hooks {} w r) {n : ℕ} (hn : r.steps < n ∨ r.ending = .halted ∧ r.steps ≤ n) :
    m.run mode hooks {} n w = r := by
  obtain ⟨ho, fuel, rfl⟩ := h
  rcases m.run_cases mode hooks w fuel with
    ⟨hu, -⟩ | ⟨-, j, -, hk, heq⟩ | ⟨fault, hend, j, -, hk, heq⟩
  · exact absurd hu ho
  · rw [heq] at ho ⊢
    exact run_over_of_le ho (by omega)
  · have hlt : j < n := by
      rcases hn with hn | ⟨hn, -⟩
      · omega
      · simp [hend] at hn
    rw [heq] at ho ⊢
    exact run_over_of_le ho hlt

/-- The flag is down wherever the run without a control gets to. -/
def NeverSet (m : Machine) (mode : Mode) (hooks : Hooks World) (w : World) (flag : World → Bool) : Prop :=
  ∀ k, flag (m.run mode hooks {} k w).world = false

/-- The flag of a control that has none. -/
theorem neverSet_down (m : Machine) (mode : Mode) (hooks : Hooks World) (w : World) :
    m.NeverSet mode hooks w fun _ => false :=
  fun _ => rfl

theorem NeverSet.recorded {m : Machine} {mode : Mode} {hooks : Hooks World} {w : World}
    {flag : World → Bool} (h : m.NeverSet mode hooks w flag) (l : List Call) :
    m.NeverSet mode hooks.recorded (w, l) (fun x => flag x.1) := by
  intro k
  have := h k
  rw [← m.run_recorded mode hooks k w l] at this
  exact this

theorem NeverSet.run_unlimited {m : Machine} {mode : Mode} {hooks : Hooks World} {w : World}
    {flag : World → Bool} (h : m.NeverSet mode hooks w flag) (fuel : ℕ) :
    m.run mode hooks ⟨none, flag⟩ fuel w = m.run mode hooks {} fuel w := by
  apply run_of_allowed
  intro j _ _
  simp [Control.refuse?, h j]

/-- With fuel for `n` steps, a run under the limit `n` is the first `n` steps of the free run, cut. -/
theorem NeverSet.run_limited {m : Machine} {mode : Mode} {hooks : Hooks World} {w : World}
    {flag : World → Bool} (h : m.NeverSet mode hooks w flag) {n fuel : ℕ} (hn : n ≤ fuel) :
    m.run mode hooks ⟨some n, flag⟩ fuel w = (m.run mode hooks {} n w).cut n := by
  have hallow : ∀ j < n, Control.Allows ⟨some n, flag⟩ (m.run mode hooks {} j w) := by
    intro j hj hu
    simp [Control.refuse?, h j, steps_of_unfinished hu, hj]
  by_cases hu : (m.run mode hooks {} n w).ending = .unfinished
  · rw [Run.cut_unfinished hu]
    refine m.run_of_refused mode hooks _ w hn hallow hu ?_
    simp [Control.refuse?, h n, steps_of_unfinished hu]
  · rw [Run.cut_of_over hu, ← run_over_of_le hu hn]
    refine m.run_of_allowed mode hooks _ fuel w (fun j _ => ?_)
    by_cases hj : j < n
    · exact hallow j hj
    · intro hju
      rw [run_over_of_le hu (Nat.not_lt.1 hj)] at hju
      exact absurd hju hu

theorem NeverSet.returns_limited {m : Machine} {mode : Mode} {hooks : Hooks World} {w : World}
    {flag : World → Bool} (h : m.NeverSet mode hooks w flag) (n : ℕ) :
    m.Returns mode hooks ⟨some n, flag⟩ w ((m.run mode hooks {} n w).cut n) :=
  ⟨Run.over_cut _ _, n, h.run_limited le_rfl⟩

/-- With fuel for as many steps as its limit allows, a run is over. -/
theorem run_limit_over (m : Machine) (mode : Mode) (hooks : Hooks World) (w : World) {n fuel : ℕ}
    (hn : n ≤ fuel) : (m.run mode hooks { limit := some n } fuel w).Over := by
  rw [(m.neverSet_down mode hooks w).run_limited hn]
  exact Run.over_cut _ n

/-- A limit cuts a run and changes nothing else. A run that halts within it, or fails before it, is
returned as it is; any other is stopped after exactly as many steps as the limit says, where the free
run then stands. The calls under a limit begin those under a greater one, and so does the output. With
no limit the run is the free one. -/
theorem limit_cuts_run (m : Machine) (mode : Mode) (hooks : Hooks World) (w : World)
    (flag : World → Bool) (hflag : m.NeverSet mode hooks w flag) :
    (∀ n,
      (∀ k s w', m.Returns mode hooks {} w ⟨.halted, k, s, w'⟩ → k ≤ n →
        m.Returns mode hooks ⟨some n, flag⟩ w ⟨.halted, k, s, w'⟩) ∧
      (∀ fault k s w', m.Returns mode hooks {} w ⟨.stopped fault, k, s, w'⟩ → k < n →
        m.Returns mode hooks ⟨some n, flag⟩ w ⟨.stopped fault, k, s, w'⟩) ∧
      ((∀ r, m.Returns mode hooks {} w r →
          (r.ending = .halted → n < r.steps) ∧ (r.ending ≠ .halted → n ≤ r.steps)) →
        ∃ s w', m.run mode hooks {} n w = ⟨.unfinished, n, s, w'⟩ ∧
          m.Returns mode hooks ⟨some n, flag⟩ w ⟨.stopped (.stepLimitExceeded n), n, s, w'⟩)) ∧
    (∀ n n', n ≤ n' → ∃ r r',
      m.Returns mode hooks.recorded ⟨some n, fun x => flag x.1⟩ (w, []) r ∧
      m.Returns mode hooks.recorded ⟨some n', fun x => flag x.1⟩ (w, []) r' ∧
      r.world.2 <+: r'.world.2 ∧ Call.output r.world.2 <+: Call.output r'.world.2) ∧
    ∀ fuel, m.run mode hooks ⟨none, flag⟩ fuel w = m.run mode hooks {} fuel w := by
  refine ⟨fun n => ⟨?_, ?_, ?_⟩, ?_, hflag.run_unlimited⟩
  · intro k s w' h hk
    have hret := hflag.returns_limited n
    rwa [h.run_eq (.inr ⟨rfl, hk⟩), Run.cut_of_over h.1] at hret
  · intro fault k s w' h hk
    have hret := hflag.returns_limited n
    rwa [h.run_eq (.inl hk), Run.cut_of_over h.1] at hret
  · intro h
    have hu : (m.run mode hooks {} n w).ending = .unfinished := by
      by_contra ho
      have hr := h _ ⟨ho, n, rfl⟩
      rcases m.run_cases mode hooks w n with ⟨hu, -⟩ | ⟨hend, j, hj, hk, -⟩ | ⟨fault, hend, j, hj, hk, -⟩
      · exact ho hu
      · have := hr.1 hend
        omega
      · have := hr.2 (by simp [hend])
        omega
    have hret := hflag.returns_limited n
    have hsteps := steps_of_unfinished hu
    rw [Run.cut_unfinished hu] at hret
    rcases hrun : m.run mode hooks {} n w with ⟨ending, k, s, w'⟩
    rw [hrun] at hu hsteps hret
    simp only at hu hsteps hret
    subst hu hsteps
    exact ⟨s, w', rfl, hret⟩
  · intro n n' hn
    have hrec := hflag.recorded []
    have hmono : ((m.run mode hooks.recorded {} n (w, [])).cut n).world.2 <+:
        ((m.run mode hooks.recorded {} n' (w, [])).cut n').world.2 := by
      rw [Run.world_cut, Run.world_cut]
      exact m.run_transcript_mono mode hooks hn w []
    exact ⟨_, _, hrec.returns_limited n, hrec.returns_limited n', hmono, Call.output_mono hmono⟩

/-- `+.` halts under the limit 2 and exceeds the limit 1, before it has written anything. -/
theorem limit_cuts_run_print : ∃ m : Machine, m.program = .ofList [.increment, .output] ∧
    m.NeverSet {} Device.hooks {} Device.cancelled ∧
    (∃ s w', m.Returns {} Device.hooks ⟨some 2, Device.cancelled⟩ {} ⟨.halted, 2, s, w'⟩ ∧
      w'.written = #[1]) ∧
    ∃ s w', m.Returns {} Device.hooks ⟨some 1, Device.cancelled⟩ {}
      ⟨.stopped (.stepLimitExceeded 1), 1, s, w'⟩ ∧ w'.written = #[] := by
  let m : Machine := ⟨.ofList [.increment, .output], ⟨#[none, none]⟩, rfl⟩
  have hflag : m.NeverSet {} Device.hooks {} Device.cancelled := by
    intro k
    rcases k with _ | _ | _ | k <;> rfl
  have hfree : m.Returns {} Device.hooks {} {} (m.run {} Device.hooks {} 2 {}) :=
    ⟨over_halted _ _ _, 2, rfl⟩
  have h := (limit_cuts_run m {} Device.hooks {} Device.cancelled hflag).1
  refine ⟨m, rfl, hflag, ⟨_, _, (h 2).1 _ _ _ hfree le_rfl, by decide⟩, ?_⟩
  obtain ⟨s, w', hrun, hret⟩ := (h 1).2.2 (fun r hr => by
    rw [hr.unique hfree]
    exact ⟨fun _ => (by decide : 1 < 2), fun _ => (by decide : 1 ≤ 2)⟩)
  refine ⟨s, w', hret, ?_⟩
  have hw : (m.run {} Device.hooks {} 1 {}).world.written = #[] := by decide
  rwa [hrun] at hw

end Machine

end TapeMachine
