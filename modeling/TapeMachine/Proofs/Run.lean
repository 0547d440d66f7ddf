import TapeMachine.Proofs.Step

/-! Runs under a control. A run is the iteration of `Engine.next` up to the first point where its
control refuses, so one with no control is the plain iteration. What a run comes to does not depend
on the fuel that it is given beyond what it needs; `Returns` leaves the fuel out. -/

namespace TapeMachine

variable {World : Type}

/-- The control has nothing against one more step. -/
def Control.Allows (c : Control World) (r : Run World) : Prop :=
  r.ending = .unfinished → c.refuse? r.steps r.world = none

theorem allows_free (r : Run World) : Control.Allows {} r := fun _ => rfl

namespace Engine

/-! A run by its first step. -/

theorem run_halted (e : Engine World) (c : Control World) (fuel k : ℕ) (s : State) (w : World) :
    e.run c fuel .halted k s w = ⟨.halted, k, s, w⟩ := by
  cases fuel <;> rfl

theorem run_refused (e : Engine World) {c : Control World} {k : ℕ} {w : World} {fault : Fault}
    (h : c.refuse? k w = some fault) (fuel : ℕ) (s : State) :
    e.run c fuel .running k s w = ⟨.stopped fault, k, s, w⟩ := by
  cases fuel <;> simp only [run, h]

theorem run_zero (e : Engine World) {c : Control World} {k : ℕ} {w : World}
    (h : c.refuse? k w = none) (s : State) : e.run c 0 .running k s w = ⟨.unfinished, k, s, w⟩ := by
  simp only [run, h]

theorem run_fault {e : Engine World} {c : Control World} {k : ℕ} {s s' : State} {w w' : World}
    {fault : Fault} (h : c.refuse? k w = none) (hs : e.step s w = ⟨.error fault, s', w'⟩) (fuel : ℕ) :
    e.run c (fuel + 1) .running k s w = ⟨.stopped fault, k, s', w'⟩ := by
  simp only [run, h, hs]

theorem run_ok {e : Engine World} {c : Control World} {k : ℕ} {s s' : State} {w w' : World}
    {st : Status} (h : c.refuse? k w = none) (hs : e.step s w = ⟨.ok st, s', w'⟩) (fuel : ℕ) :
    e.run c (fuel + 1) .running k s w = e.run c fuel st (k + 1) s' w' := by
  simp only [run, h, hs]

/-- A run that its control never refuses is the plain iteration. -/
theorem run_of_allowed (e : Engine World) (c : Control World) (fuel : ℕ) :
    ∀ (st : Status) (k : ℕ) (s : State) (w : World),
      (∀ j ≤ fuel, c.Allows (e.next^[j] ⟨st.ending, k, s, w⟩)) →
      e.run c fuel st k s w = e.next^[fuel] ⟨st.ending, k, s, w⟩ := by
  induction fuel with
  | zero =>
    intro st k s w h
    cases st with
    | halted => exact e.run_halted c 0 k s w
    | running => exact e.run_zero (h 0 le_rfl rfl) s
  | succ fuel ih =>
    intro st k s w h
    cases st with
    | halted =>
      rw [run_halted]
      exact (iterate_of_over (over_halted k s w) _).symm
    | running =>
      have h0 : c.refuse? k w = none := h 0 (Nat.zero_le _) rfl
      rw [Function.iterate_succ_apply, Status.ending]
      rcases step_cases e s w with ⟨fault, w', hs⟩ | ⟨s', w', hs⟩
      · rw [run_fault h0 hs, next_fault hs, iterate_of_over (over_stopped _ _ _ _)]
      · rw [run_ok h0 hs, next_ok hs]
        refine ih _ _ _ _ (fun j hj => ?_)
        have := h (j + 1) (by omega)
        rwa [Function.iterate_succ_apply, Status.ending, next_ok hs] at this

/-- A run ends at the first point where the control refuses to go on. -/
theorem run_of_refused (e : Engine World) (c : Control World) {fault : Fault} (n : ℕ) :
    ∀ (fuel : ℕ) (st : Status) (k : ℕ) (s : State) (w : World), n ≤ fuel →
      (∀ j < n, c.Allows (e.next^[j] ⟨st.ending, k, s, w⟩)) →
      (e.next^[n] ⟨st.ending, k, s, w⟩).ending = .unfinished →
      c.refuse? (e.next^[n] ⟨st.ending, k, s, w⟩).steps (e.next^[n] ⟨st.ending, k, s, w⟩).world =
        some fault →
      e.run c fuel st k s w = { e.next^[n] ⟨st.ending, k, s, w⟩ with ending := .stopped fault } := by
  induction n with
  | zero =>
    intro fuel st k s w _ _ hu hf
    cases st with
    | halted => simp [Status.ending] at hu
    | running => exact e.run_refused hf fuel s
  | succ n ih =>
    intro fuel st k s w hn h hu hf
    obtain ⟨fuel, rfl⟩ : ∃ d, fuel = d + 1 := ⟨fuel - 1, by omega⟩
    cases st with
    | halted =>
      rw [Status.ending, iterate_of_over (over_halted _ _ _)] at hu
      simp at hu
    | running =>
      have h0 : c.refuse? k w = none := h 0 n.succ_pos rfl
      simp only [Function.iterate_succ_apply, Status.ending] at hu hf ⊢
      rcases step_cases e s w with ⟨fault, w', hs⟩ | ⟨s', w', hs⟩
      · rw [next_fault hs, iterate_of_over (over_stopped _ _ _ _)] at hu
        simp at hu
      · rw [next_ok hs] at hu hf ⊢
        rw [run_ok h0 hs]
        refine ih fuel _ _ _ _ (by omega) (fun j hj => ?_) hu hf
        have := h (j + 1) (by omega)
        rwa [Function.iterate_succ_apply, Status.ending, next_ok hs] at this

theorem run_free (e : Engine World) (fuel : ℕ) (st : Status) (k : ℕ) (s : State) (w : World) :
    e.run {} fuel st k s w = e.next^[fuel] ⟨st.ending, k, s, w⟩ :=
  run_of_allowed e {} fuel st k s w (fun _ _ => allows_free _)

/-- From this state and world, a run under the control comes to an end, and to this one. -/
def Returns (e : Engine World) (c : Control World) (s : State) (w : World) (r : Run World) : Prop :=
  r.Over ∧ ∃ fuel, e.run c fuel (e.status s) 0 s w = r

theorem returns_free (e : Engine World) (s : State) (w : World) (r : Run World) :
    e.Returns {} s w r ↔ r.Over ∧ ∃ n, e.next^[n] (e.stand 0 s w) = r := by
  simp only [Returns, run_free, stand]

/-- More fuel changes nothing about a run that is over. -/
theorem run_fuel_succ (e : Engine World) (c : Control World) (fuel : ℕ) :
    ∀ (st : Status) (k : ℕ) (s : State) (w : World), (e.run c fuel st k s w).Over →
      e.run c (fuel + 1) st k s w = e.run c fuel st k s w := by
  induction fuel with
  | zero =>
    intro st k s w h
    cases st with
    | halted => rw [run_halted, run_halted]
    | running =>
      cases hr : c.refuse? k w with
      | some fault => rw [run_refused e hr, run_refused e hr]
      | none =>
        rw [run_zero e hr] at h
        simp [Run.Over] at h
  | succ fuel ih =>
    intro st k s w h
    cases st with
    | halted => rw [run_halted, run_halted]
    | running =>
      cases hr : c.refuse? k w with
      | some fault => rw [run_refused e hr, run_refused e hr]
      | none =>
        rcases step_cases e s w with ⟨fault, w', hs⟩ | ⟨s', w', hs⟩
        · rw [run_fault hr hs, run_fault hr hs]
        · rw [run_ok hr hs] at h
          rw [run_ok hr hs, run_ok hr hs]
          exact ih _ _ _ _ h

theorem run_fuel_le (e : Engine World) (c : Control World) {m n : ℕ} (hmn : m ≤ n) {st : Status} {k : ℕ}
    {s : State} {w : World} (h : (e.run c m st k s w).Over) :
    e.run c n st k s w = e.run c m st k s w := by
  induction n, hmn using Nat.le_induction with
  | base => rfl
  | succ n _ ih => rw [run_fuel_succ e c n _ _ _ _ (ih ▸ h), ih]

theorem Returns.unique {e : Engine World} {c : Control World} {s : State} {w : World} {r r' : Run World}
    (h : e.Returns c s w r) (h' : e.Returns c s w r') : r = r' := by
  obtain ⟨ho, m, rfl⟩ := h
  obtain ⟨ho', n, rfl⟩ := h'
  rcases Nat.le_total m n with hmn | hmn
  · exact (run_fuel_le e c hmn ho).symm
  · exact run_fuel_le e c hmn ho'

/-- The states in which a run without a control executes an instruction are those where it stands
unfinished. -/
theorem mem_visits (e : Engine World) (n : ℕ) :
    ∀ (st : Status) (k : ℕ) (s : State) (w : World) (x : State), x ∈ e.visits {} n st k s w ↔
      ∃ j < n, (e.next^[j] ⟨st.ending, k, s, w⟩).ending = .unfinished ∧
        (e.next^[j] ⟨st.ending, k, s, w⟩).state = x := by
  induction n with
  | zero =>
    intro st k s w x
    cases st <;> simp [visits, Control.refuse?]
  | succ n ih =>
    intro st k s w x
    cases st with
    | halted =>
      simp only [visits, List.not_mem_nil, false_iff, not_exists, not_and]
      intro j _ hu
      rw [Status.ending, iterate_of_over (over_halted _ _ _)] at hu
      simp at hu
    | running =>
      simp only [visits, Control.refuse?, Bool.false_eq_true, if_false, List.mem_cons]
      rw [Nat.exists_lt_succ_left]
      simp only [Function.iterate_succ_apply, Function.iterate_zero_apply, Status.ending, true_and,
        eq_comm (a := x)]
      refine or_congr Iff.rfl ?_
      rcases step_cases e s w with ⟨fault, w', hs⟩ | ⟨s', w', hs⟩
      · rw [next_fault hs, hs]
        simp only [List.not_mem_nil, false_iff, not_exists, not_and]
        intro j _ hu
        rw [iterate_of_over (over_stopped _ _ _ _)] at hu
        simp at hu
      · rw [next_ok hs, hs]
        exact ih _ _ _ _ x

end Engine

namespace Machine

/-- The run of a machine from a fresh tape comes to an end, and to this one. -/
def Returns (m : Machine) (mode : Mode) (hooks : Hooks World) (c : Control World) (w : World)
    (r : Run World) : Prop :=
  r.Over ∧ ∃ fuel, m.run mode hooks c fuel w = r

/-- Where a run from a fresh tape starts. -/
def start (m : Machine) (mode : Mode) (hooks : Hooks World) (w : World) : Run World :=
  (m.engine hooks mode.eof).stand 0 { tape := { width := mode.width } } w

theorem start_eq (m : Machine) (mode : Mode) (hooks : Hooks World) (w : World) :
    m.start mode hooks w =
      ⟨(Status.initial m.program).ending, 0, { tape := { width := mode.width } }, w⟩ := by
  rw [start, Engine.stand, Engine.status_initial]
  rfl

theorem run_free (m : Machine) (mode : Mode) (hooks : Hooks World) (n : ℕ) (w : World) :
    m.run mode hooks {} n w = (m.engine hooks mode.eof).next^[n] (m.start mode hooks w) := by
  rw [run, Engine.run_free, start_eq]

theorem run_of_allowed (m : Machine) (mode : Mode) (hooks : Hooks World) (c : Control World) (n : ℕ)
    (w : World) (h : ∀ j ≤ n, c.Allows (m.run mode hooks {} j w)) :
    m.run mode hooks c n w = m.run mode hooks {} n w := by
  simp only [run_free, start_eq] at h ⊢
  exact Engine.run_of_allowed _ c n _ _ _ _ h

theorem run_of_refused (m : Machine) (mode : Mode) (hooks : Hooks World) (c : Control World)
    {fault : Fault} {n fuel : ℕ} (w : World) (hn : n ≤ fuel)
    (h : ∀ j < n, c.Allows (m.run mode hooks {} j w))
    (hu : (m.run mode hooks {} n w).ending = .unfinished)
    (hf : c.refuse? (m.run mode hooks {} n w).steps (m.run mode hooks {} n w).world = some fault) :
    m.run mode hooks c fuel w = { m.run mode hooks {} n w with ending := .stopped fault } := by
  simp only [run_free, start_eq] at h hu hf ⊢
  exact Engine.run_of_refused _ c n fuel _ _ _ _ hn h hu hf

theorem Returns.unique {m : Machine} {mode : Mode} {hooks : Hooks World} {c : Control World} {w : World}
    {r r' : Run World} (h : m.Returns mode hooks c w r) (h' : m.Returns mode hooks c w r') : r = r' := by
  have key : ∀ x, m.Returns mode hooks c w x →
      (m.engine hooks mode.eof).Returns c { tape := { width := mode.width } } w x := by
    rintro x ⟨ho, n, hx⟩
    refine ⟨ho, n, ?_⟩
    rw [Engine.status_initial]
    exact hx
  exact (key r h).unique (key r' h')

/-- Beyond some fuel, every run comes to what the machine returns. -/
theorem Returns.eventually {m : Machine} {mode : Mode} {hooks : Hooks World} {c : Control World} {w : World}
    {r : Run World} (h : m.Returns mode hooks c w r) :
    ∃ fuel, ∀ n, fuel ≤ n → m.run mode hooks c n w = r := by
  obtain ⟨ho, fuel, rfl⟩ := h
  exact ⟨fuel, fun n hn => Engine.run_fuel_le _ _ hn ho⟩

end Machine

end TapeMachine
