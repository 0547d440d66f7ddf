import TapeMachine.Proofs.Exchange
import TapeMachine.Proofs.Limit
import TapeMachine.Proofs.Safety

/-! Requests to stop. A flag in the world may be raised by the hooks while a run is going on. Up to the
first point between two steps at which it is up, the run goes in step with the one whose hooks put it
down again after each call; what happens there is decided by whether that run gets to this point at all. -/

namespace TapeMachine

variable {World : Type}

/-- A flag somewhere in a world: whether it is up, and the same world with it down. -/
structure Flag (World : Type) where
  up : World → Bool
  lower : World → World
  up_lower : ∀ w, up (lower w) = false
  lower_of_down : ∀ w, up w = false → lower w = w

/-- The request to stop that an output of a device may raise. -/
def Device.flag : Flag Device where
  up := Device.cancelled
  lower d := d.setCancelled false
  up_lower _ := rfl
  lower_of_down := by
    rintro ⟨_, _, _, _, _, cancelled⟩ h
    simp only at h
    subst h
    rfl

def Hooks.held (h : Hooks World) (f : Flag World) : Hooks World where
  read w := ((h.read w).1, f.lower (h.read w).2)
  write b w := ((h.write b w).1, f.lower (h.write b w).2)

def Run.lowered (f : Flag World) (r : Run World) : Run World := { r with world := f.lower r.world }

namespace Engine

def held (e : Engine World) (f : Flag World) : Engine World :=
  ⟨e.program, e.jumps, e.hooks.held f, e.eof⟩

/-- While the flag is down, holding it down changes nothing about a step but the flag behind it. -/
theorem step_held (e : Engine World) {f : Flag World} (s : State) {w : World} (h : f.up w = false) :
    (e.held f).step s w = ⟨(e.step s w).result, (e.step s w).state, f.lower (e.step s w).world⟩ := by
  have hcalls : (e.held f).calls s w = e.calls s w := by
    unfold calls held
    cases e.program.get? s.cursor.position with
    | none => rfl
    | some i => cases i <;> rfl
  have hafter : (e.held f).after s w = f.lower (e.after s w) := by
    unfold after held
    have hw := f.lower_of_down w h
    cases e.program.get? s.cursor.position with
    | none => exact hw.symm
    | some i => cases i <;> first | rfl | exact hw.symm
  have halike : (e.held f).Alike e := ⟨rfl, rfl, rfl⟩
  obtain ⟨hr, hs⟩ := step_congr halike hcalls
  have hw := (e.held f).world_of_step s w
  rw [hafter, ← e.world_of_step s w] at hw
  rw [← hr, ← hs, ← hw]

/-- As long as the flag is down wherever the run gets to, and the controls refuse the same, the run goes in
step with the one whose flag is held down. -/
theorem run_held (e : Engine World) (f : Flag World) {c c' : Control World} (fuel : ℕ) (st : Status) (k : ℕ)
    (s : State) (w : World)
    (hdown : ∀ j < fuel, (e.next^[j] ⟨st.ending, k, s, w⟩).ending = .unfinished →
      f.up (e.next^[j] ⟨st.ending, k, s, w⟩).world = false)
    (hc : ∀ j ≤ fuel, (e.next^[j] ⟨st.ending, k, s, w⟩).ending = .unfinished →
      c'.refuse? (e.next^[j] ⟨st.ending, k, s, w⟩).steps (f.lower (e.next^[j] ⟨st.ending, k, s, w⟩).world) =
        c.refuse? (e.next^[j] ⟨st.ending, k, s, w⟩).steps (e.next^[j] ⟨st.ending, k, s, w⟩).world) :
    (e.held f).run c' fuel st k s (f.lower w) = (e.run c fuel st k s w).lowered f := by
  fun_induction Engine.run e c fuel st k s w with
  | case1 fuel k s w =>
    rw [run_halted]
    rfl
  | case2 fuel k s w fault hr =>
    have h0 : c'.refuse? k (f.lower w) = some fault := (hc 0 (Nat.zero_le _) rfl).trans hr
    rw [run_refused _ h0]
    rfl
  | case3 k s w hr =>
    have h0 : c'.refuse? k (f.lower w) = none := (hc 0 le_rfl rfl).trans hr
    rw [run_zero _ h0]
    rfl
  | case4 k s w hr fuel fault s' w' hs =>
    have h0 : c'.refuse? k (f.lower w) = none := (hc 0 (Nat.zero_le _) rfl).trans hr
    have hw : f.up w = false := hdown 0 fuel.succ_pos rfl
    have hstep := e.step_held s hw
    rw [hs] at hstep
    rw [f.lower_of_down w hw] at h0 ⊢
    rw [run_fault h0 hstep]
    rfl
  | case5 k s w hr fuel st s' w' hs ih =>
    have h0 : c'.refuse? k (f.lower w) = none := (hc 0 (Nat.zero_le _) rfl).trans hr
    have hw : f.up w = false := hdown 0 fuel.succ_pos rfl
    have hstep := e.step_held s hw
    rw [hs] at hstep
    rw [f.lower_of_down w hw] at h0 ⊢
    rw [run_ok h0 hstep]
    -- what holds `j` steps behind the next state holds `j + 1` steps behind this one
    have hnext (j : ℕ) : e.next^[j + 1] ⟨.unfinished, k, s, w⟩ = e.next^[j] ⟨st.ending, k + 1, s', w'⟩ := by
      rw [Function.iterate_succ_apply, next_ok hs]
    refine ih (fun j hj => ?_) (fun j hj => ?_)
    · rw [← hnext]
      exact hdown (j + 1) (by omega)
    · rw [← hnext]
      exact hc (j + 1) (by omega)

end Engine

namespace Machine

/-- The run is still going after `c` steps exactly if what it returns has taken more, or as many and did
not halt with the last of them. -/
theorem Returns.unfinished_iff {m : Machine} {mode : Mode} {hooks : Hooks World} {w : World} {r : Run World}
    (h : m.Returns mode hooks {} w r) (c : ℕ) : (m.run mode hooks {} c w).ending = .unfinished ↔
      (r.ending = .halted → c < r.steps) ∧ (r.ending ≠ .halted → c ≤ r.steps) := by
  constructor
  · intro hu
    by_contra hn
    have hover : (m.run mode hooks {} c w).Over := by
      rw [h.run_eq (n := c)]
      · exact h.1
      · by_cases hr : r.ending = .halted <;> simp [hr] at hn ⊢ <;> omega
    exact hover hu
  · rintro ⟨hhalt, hstop⟩
    by_contra hover
    have heq : m.run mode hooks {} c w = r := Returns.unique ⟨hover, c, rfl⟩ h
    rcases m.run_cases mode hooks w c with ⟨hu, -⟩ | ⟨hend, j, hj, hk, -⟩ | ⟨fault, hend, j, hj, hk, -⟩
    · exact hover hu
    · rw [heq] at hend hk
      have := hhalt hend
      omega
    · rw [heq] at hend hk
      have := hstop (by simp [hend])
      omega

theorem unfinished_of_le {m : Machine} {mode : Mode} {hooks : Hooks World} {w : World} {j k : ℕ}
    (h : (m.run mode hooks {} k w).ending = .unfinished) (hjk : j ≤ k) :
    (m.run mode hooks {} j w).ending = .unfinished := by
  by_contra hover
  rw [run_over_of_le hover hjk] at h
  exact hover h

/-- The run under this limit gets to the point after `c` steps and is about to go on, or to be stopped
there by its limit. -/
def Arrives (m : Machine) (mode : Mode) (hooks : Hooks World) (limit : Option ℕ) (w : World) (c : ℕ) :
    Prop :=
  (m.run mode hooks {} c w).ending = .unfinished ∧ ∀ n, limit = some n → c ≤ n

theorem Returns.arrives_iff {m : Machine} {mode : Mode} {hooks : Hooks World} {limit : Option ℕ}
    {w : World} {r : Run World} (h : m.Returns mode hooks { limit := limit } w r) (c : ℕ) :
    m.Arrives mode hooks limit w c ↔
      (r.ending = .halted → c < r.steps) ∧ (r.ending ≠ .halted → c ≤ r.steps) := by
  cases limit with
  | none =>
    rw [← h.unfinished_iff c, Arrives]
    simp
  | some n =>
    have hr := h.unique ((m.neverSet_down mode hooks w).returns_limited n)
    by_cases hu : (m.run mode hooks {} n w).ending = .unfinished
    · rw [Run.cut_unfinished hu] at hr
      have hn : r.steps = n := by rw [hr]; exact steps_of_unfinished hu
      have hend : r.ending ≠ .halted := by rw [hr]; simp
      simp only [Arrives, hn, hend, false_implies, ne_eq, not_false_eq_true, true_implies, true_and,
        Option.some.injEq, forall_eq']
      exact ⟨fun hc => hc.2, fun hc => ⟨unfinished_of_le hu hc, hc⟩⟩
    · rw [Run.cut_of_over hu] at hr
      have hfree : m.Returns mode hooks {} w r := ⟨h.1, n, hr.symm⟩
      have hn : r.steps ≤ n := by
        rcases m.run_cases mode hooks w n with ⟨hgo, -⟩ | ⟨-, j, hj, hk, -⟩ | ⟨_, -, j, hj, hk, -⟩
        · exact absurd hgo hu
        · rw [hr, hk]
          exact hj
        · rw [hr, hk]
          exact hj.le
      rw [Arrives, hfree.unfinished_iff c]
      simp only [Option.some.injEq, forall_eq', and_iff_left_iff_imp]
      intro hc
      by_cases hend : r.ending = .halted
      · exact (hc.1 hend).le.trans hn
      · exact (hc.2 hend).trans hn

section flag

variable {m : Machine} {mode : Mode} {hooks : Hooks World} {f : Flag World} {limit : Option ℕ} {w : World}

/-- The flag is up after so many completed steps, and after no fewer. -/
structure RaisedAt (m : Machine) (mode : Mode) (hooks : Hooks World) (f : Flag World) (w : World) (c : ℕ) :
    Prop where
  steps : (m.run mode hooks {} c w).steps = c
  up : f.up (m.run mode hooks {} c w).world = true
  down : ∀ j < c, f.up (m.run mode hooks {} j w).world = false

theorem run_held {c c' : Control World} {fuel : ℕ}
    (hdown : ∀ j < fuel, (m.run mode hooks {} j w).ending = .unfinished →
      f.up (m.run mode hooks {} j w).world = false)
    (hc : ∀ j ≤ fuel, (m.run mode hooks {} j w).ending = .unfinished →
      c'.refuse? (m.run mode hooks {} j w).steps (f.lower (m.run mode hooks {} j w).world) =
        c.refuse? (m.run mode hooks {} j w).steps (m.run mode hooks {} j w).world) :
    m.run mode (hooks.held f) c' fuel (f.lower w) = (m.run mode hooks c fuel w).lowered f := by
  simp only [run_free, start_eq] at hdown hc
  exact (m.engine hooks mode.eof).run_held f fuel _ _ _ _ hdown hc

/-- Up to the first time that the flag is up, a run without a control is in step with the one whose flag is
held down. -/
theorem RaisedAt.run_eq {c : ℕ} (h : m.RaisedAt mode hooks f w c) {j : ℕ} (hj : j ≤ c) :
    m.run mode (hooks.held f) {} j (f.lower w) = (m.run mode hooks {} j w).lowered f :=
  run_held (fun i hi _ => h.down i (by omega)) (fun _ _ _ => rfl)

theorem refuse?_of_down {limit : Option ℕ} {w : World} (h : f.up w = false) (k : ℕ) :
    Control.refuse? { limit := limit } k (f.lower w) = Control.refuse? ⟨limit, f.up⟩ k w := by
  simp [Control.refuse?, h]

/-- A run under a limit that is over before it sees the flag up returns as if it were never raised. -/
theorem run_unheard (limit : Option ℕ) {fuel : ℕ}
    (hdown : ∀ j ≤ fuel, (m.run mode hooks {} j w).ending = .unfinished →
      f.up (m.run mode hooks {} j w).world = false) :
    m.run mode (hooks.held f) { limit := limit } fuel (f.lower w) =
      (m.run mode hooks ⟨limit, f.up⟩ fuel w).lowered f :=
  run_held (fun j hj => hdown j hj.le) (fun j hj hu => refuse?_of_down (hdown j hj hu) _)

/-- The run is cancelled after `c` steps, where the run whose flag is never up then stands. -/
def CancelledAt (m : Machine) (mode : Mode) (hooks : Hooks World) (f : Flag World) (limit : Option ℕ)
    (w : World) (c : ℕ) : Prop :=
  ∃ s w', m.Returns mode hooks ⟨limit, f.up⟩ w ⟨.stopped .cancelled, c, s, w'⟩ ∧
    m.run mode (hooks.held f) {} c (f.lower w) = ⟨.unfinished, c, s, f.lower w'⟩

theorem RaisedAt.cancelled {c : ℕ} (h : m.RaisedAt mode hooks f w c)
    (ha : m.Arrives mode (hooks.held f) limit (f.lower w) c) : m.CancelledAt mode hooks f limit w c := by
  have hrun := h.run_eq le_rfl
  have hu : (m.run mode hooks {} c w).ending = .unfinished := by
    have := ha.1
    rwa [hrun] at this
  have hallow : ∀ j < c, Control.Allows ⟨limit, f.up⟩ (m.run mode hooks {} j w) := by
    intro j hj hgo
    cases limit with
    | none => simp [Control.refuse?, h.down j hj]
    | some n =>
      have hjn : j < n := hj.trans_le (ha.2 n rfl)
      simp [Control.refuse?, h.down j hj, steps_of_unfinished hgo, hjn]
  have hup : Control.refuse? ⟨limit, f.up⟩ (m.run mode hooks {} c w).steps (m.run mode hooks {} c w).world =
      some .cancelled := by
    simp [Control.refuse?, h.up]
  have hstop := m.run_of_refused mode hooks ⟨limit, f.up⟩ w le_rfl hallow hu hup
  have hsteps := h.steps
  rcases hr : m.run mode hooks {} c w with ⟨ending, k, s, w'⟩
  rw [hr] at hu hsteps hstop hrun
  simp only at hu hsteps
  subst hu hsteps
  exact ⟨s, w', ⟨over_stopped _ _ _ _, k, hstop⟩, hrun⟩

/-- If the run whose flag is never up does not get to where it would be up, it is what is returned. -/
theorem RaisedAt.unheard {c : ℕ} (h : m.RaisedAt mode hooks f w c)
    (ha : ¬ m.Arrives mode (hooks.held f) limit (f.lower w) c) {r : Run World}
    (hr : m.Returns mode (hooks.held f) { limit := limit } (f.lower w) r) :
    ∃ w', f.lower w' = r.world ∧ m.Returns mode hooks ⟨limit, f.up⟩ w { r with world := w' } := by
  have key : ∀ fuel, m.run mode (hooks.held f) { limit := limit } fuel (f.lower w) = r →
      (∀ j ≤ fuel, (m.run mode hooks {} j w).ending = .unfinished → j < c) →
      ∃ w', f.lower w' = r.world ∧ m.Returns mode hooks ⟨limit, f.up⟩ w { r with world := w' } := by
    intro fuel hfuel hj
    have hrun := run_unheard limit (fun j hle hu => h.down j (hj j hle hu))
    rw [hfuel] at hrun
    refine ⟨(m.run mode hooks ⟨limit, f.up⟩ fuel w).world, ?_, ?_⟩
    · rw [hrun]; rfl
    · refine ⟨hr.1, fuel, ?_⟩
      rw [hrun]
      rfl
  by_cases hu : (m.run mode hooks {} c w).ending = .unfinished
  · have : ∃ n, limit = some n ∧ n < c := by
      by_contra hn
      refine ha ⟨by rw [h.run_eq le_rfl]; exact hu, fun n hlim => ?_⟩
      by_contra hlt
      exact hn ⟨n, hlim, by omega⟩
    obtain ⟨n, rfl, hn⟩ := this
    refine key n ?_ (fun j hj _ => by omega)
    rw [(m.neverSet_down mode _ _).run_limited le_rfl]
    exact ((m.neverSet_down mode _ _).returns_limited n).unique hr
  · obtain ⟨-, fuel, hfuel⟩ := hr
    refine key fuel hfuel (fun j _ hgo => ?_)
    by_contra hj
    exact hu (unfinished_of_le hgo (by omega))

theorem run_unraised (h : ∀ c, ¬ m.RaisedAt mode hooks f w c) (fuel : ℕ) :
    m.run mode (hooks.held f) { limit := limit } fuel (f.lower w) =
      (m.run mode hooks ⟨limit, f.up⟩ fuel w).lowered f := by
  refine run_unheard limit (fun j _ hu => ?_)
  by_contra hup
  rw [Bool.not_eq_false] at hup
  -- the least such point is one at which the flag is raised
  have hex : ∃ j, (m.run mode hooks {} j w).ending = .unfinished ∧
      f.up (m.run mode hooks {} j w).world = true := ⟨j, hu, hup⟩
  classical
  obtain ⟨hgo, hfirst⟩ := Nat.find_spec hex
  refine h (Nat.find hex) ⟨steps_of_unfinished hgo, hfirst, fun i hi => ?_⟩
  have := Nat.find_min hex hi
  rw [not_and, Bool.not_eq_true] at this
  exact this (unfinished_of_le hgo hi.le)

end flag

theorem Returns.limit_exceeded {m : Machine} {mode : Mode} {hooks : Hooks World} {limit : Option ℕ}
    {w w' : World} {n k : ℕ} {s : State}
    (h : m.Returns mode hooks { limit := limit } w ⟨.stopped (.stepLimitExceeded n), k, s, w'⟩) :
    limit = some n ∧ k = n := by
  obtain ⟨-, fuel, hrun⟩ := id h
  have hn : limit = some n := limit_of_exceeded hrun rfl
  subst hn
  refine ⟨rfl, ?_⟩
  have hr := h.unique ((m.neverSet_down mode hooks w).returns_limited n)
  by_cases hu : (m.run mode hooks {} n w).ending = .unfinished
  · rw [Run.cut_unfinished hu] at hr
    have := congrArg Run.steps hr
    exact this.trans (steps_of_unfinished hu)
  · rw [Run.cut_of_over hu] at hr
    cases limit_of_exceeded hr.symm rfl

/-- A request to stop takes effect between the step that raises it and the next one, in front of the
step limit, and not at all on a run that is over. Here `c` is the number of steps after which the flag
is first up, and the run to compare with is the one whose hooks leave it down. Where that run halts
after `h` steps, fails or meets its limit after `e` steps, or goes on for ever, the run is cancelled
after exactly `c` steps just when `c < h`, `c ≤ e`, or always; else it returns the same. -/
theorem cancelled_between_steps (m : Machine) (mode : Mode) (hooks : Hooks World) (f : Flag World)
    (limit : Option ℕ) (w : World) :
    (∀ c, m.RaisedAt mode hooks f w c →
      (∀ h s w', m.Returns mode (hooks.held f) { limit := limit } (f.lower w) ⟨.halted, h, s, w'⟩ →
        (m.CancelledAt mode hooks f limit w c ↔ c < h) ∧
        (h ≤ c → ∃ w'', f.lower w'' = w' ∧ m.Returns mode hooks ⟨limit, f.up⟩ w ⟨.halted, h, s, w''⟩)) ∧
      (∀ fault e s w',
        m.Returns mode (hooks.held f) { limit := limit } (f.lower w) ⟨.stopped fault, e, s, w'⟩ →
        (m.CancelledAt mode hooks f limit w c ↔ c ≤ e) ∧
        (e < c → ∃ w'', f.lower w'' = w' ∧
          m.Returns mode hooks ⟨limit, f.up⟩ w ⟨.stopped fault, e, s, w''⟩) ∧
        ∀ n, fault = .stepLimitExceeded n → limit = some n ∧ e = n) ∧
      ((∀ r, ¬ m.Returns mode (hooks.held f) { limit := limit } (f.lower w) r) →
        m.CancelledAt mode hooks f limit w c)) ∧
    ((∀ c, ¬ m.RaisedAt mode hooks f w c) → ∀ fuel,
      (m.run mode hooks ⟨limit, f.up⟩ fuel w).lowered f =
        m.run mode (hooks.held f) { limit := limit } fuel (f.lower w)) := by
  refine ⟨fun c hc => ⟨fun h s w' hr => ?_, fun fault e s w' hr => ?_, fun hr => ?_⟩,
    fun h fuel => (run_unraised h fuel).symm⟩
  · have harr := hr.arrives_iff c
    simp only [true_implies, ne_eq, not_true_eq_false, false_implies, and_true] at harr
    have hrest : h ≤ c → ∃ w'', f.lower w'' = w' ∧
        m.Returns mode hooks ⟨limit, f.up⟩ w ⟨.halted, h, s, w''⟩ :=
      fun hle => hc.unheard (fun ha => by have := harr.1 ha; omega) hr
    refine ⟨⟨fun hcan => ?_, fun hlt => hc.cancelled (harr.2 hlt)⟩, hrest⟩
    by_contra hle
    obtain ⟨w'', -, hret⟩ := hrest (by omega)
    obtain ⟨_, _, hstop, -⟩ := hcan
    cases hret.unique hstop
  · have harr := hr.arrives_iff c
    simp only [reduceCtorEq, false_implies, ne_eq, not_false_eq_true, true_implies, true_and] at harr
    have hrest : e < c → ∃ w'', f.lower w'' = w' ∧
        m.Returns mode hooks ⟨limit, f.up⟩ w ⟨.stopped fault, e, s, w''⟩ :=
      fun hlt => hc.unheard (fun ha => by have := harr.1 ha; omega) hr
    refine ⟨⟨fun hcan => ?_, fun hle => hc.cancelled (harr.2 hle)⟩, hrest, ?_⟩
    · by_contra hlt
      obtain ⟨w'', -, hret⟩ := hrest (by omega)
      obtain ⟨_, _, hstop, -⟩ := hcan
      have := congrArg Run.steps (hret.unique hstop)
      simp only at this
      omega
    · rintro n rfl
      exact hr.limit_exceeded
  · apply hc.cancelled
    constructor
    · by_contra hover
      cases limit with
      | none => exact hr _ ⟨hover, c, rfl⟩
      | some n => exact hr _ ((m.neverSet_down mode _ _).returns_limited n)
    · rintro n rfl
      exact absurd ((m.neverSet_down mode _ _).returns_limited n) (hr _)

/-- The first of two outputs raises the flag on the step that reaches the limit: the run `..` under the
limit 1 is cancelled, and does not exceed its limit. -/
theorem cancelled_between_steps_at_limit : ∃ m : Machine, m.program = .ofList [.output, .output] ∧
    ∃ d : Device, d.receptions = [.acceptAndCancel] ∧ m.RaisedAt {} Device.hooks Device.flag d 1 ∧
      (∃ s w', m.Returns {} (Device.hooks.held Device.flag) { limit := some 1 } (Device.flag.lower d)
        ⟨.stopped (.stepLimitExceeded 1), 1, s, w'⟩) ∧
      m.CancelledAt {} Device.hooks Device.flag (some 1) d 1 := by
  let m : Machine := ⟨.ofList [.output, .output], ⟨#[none, none]⟩, rfl⟩
  let d : Device := { receptions := [.acceptAndCancel] }
  have hraised : m.RaisedAt {} Device.hooks Device.flag d 1 := by
    refine ⟨rfl, rfl, fun j hj => ?_⟩
    obtain rfl : j = 0 := by omega
    rfl
  have hlimit : m.Returns {} (Device.hooks.held Device.flag) { limit := some 1 } (Device.flag.lower d)
      ⟨.stopped (.stepLimitExceeded 1), 1, _, _⟩ := ⟨over_stopped _ _ _ _, 1, rfl⟩
  have h := (cancelled_between_steps m {} Device.hooks Device.flag (some 1) d).1 1 hraised
  exact ⟨m, rfl, d, rfl, hraised, ⟨_, _, hlimit⟩, (h.2.1 _ _ _ _ hlimit).1.2 le_rfl⟩

end Machine

end TapeMachine
