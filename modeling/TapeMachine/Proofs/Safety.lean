import TapeMachine.Proofs.Matching
import TapeMachine.Proofs.Run
import TapeMachine.Device

/-! What the loop of a run passes through, and what must have happened for the run to end as it does.
An instruction fails only for a reason that `Fails` lists. With the program's own table a bracket has
a partner inside the program, so the cursor of a machine never leaves it, one position behind the last
instruction included, and no bracket is ever found without a partner. -/

namespace TapeMachine

variable {World : Type}

namespace Engine

/-- Why an instruction fails, with the fault and the world that it leaves. -/
inductive Fails (e : Engine World) (s : State) (w : World) : Instruction → Fault → World → Prop
  | unwritten {reason : String} {w' : World}
      (h : e.hooks.write (Tape.outputByte s.tape.read) w = (.failure reason, w')) :
      Fails e s w .output (.io s.cursor.position reason) w'
  | unread {reason : String} {w' : World} (h : e.hooks.read w = (.failure reason, w')) :
      Fails e s w .input (.io s.cursor.position reason) w'
  | exhausted {w' : World} (he : e.eof = .error) (h : e.hooks.read w = (.endOfInput, w')) :
      Fails e s w .input (.inputExhausted s.cursor.position) w'
  | unclosed (h0 : s.tape.read = 0) (h : e.jumps.target? s.cursor.position = none) :
      Fails e s w .loopStart (.unmatchedBracket s.cursor.position .opening) w
  | unopened (h0 : s.tape.read ≠ 0) (h : e.jumps.target? s.cursor.position = none) :
      Fails e s w .loopEnd (.unmatchedBracket s.cursor.position .closing) w

theorem jump_error {e : Engine World} {b : Bracket} {s s' : State} {w w' : World} {fault : Fault}
    (h : e.jump b s w = ⟨.error fault, s', w'⟩) :
    e.jumps.target? s.cursor.position = none ∧ fault = .unmatchedBracket s.cursor.position b ∧ w' = w := by
  unfold jump at h
  split at h
  · cases h
  · cases h
    exact ⟨‹_›, rfl, rfl⟩

theorem jump_ok {e : Engine World} {b : Bracket} {s s' : State} {w w' : World}
    (h : e.jump b s w = ⟨.ok (), s', w'⟩) :
    e.jumps.target? s.cursor.position = some s'.cursor.position ∧ s'.tape = s.tape := by
  unfold jump at h
  split at h
  · cases h
    exact ⟨‹_›, rfl⟩
  · cases h

theorem fails_of_perform {e : Engine World} {i : Instruction} {s s' : State} {w w' : World} {fault : Fault}
    (h : e.perform i s w = ⟨.error fault, s', w'⟩) : e.Fails s w i fault w' := by
  cases i with
  | output =>
    simp only [perform] at h
    split at h
    · cases h
    · cases h
      exact .unwritten ‹_›
  | input =>
    simp only [perform] at h
    split at h
    · cases h
    · rename_i hr
      cases he : e.eof <;> simp only [endOfInput, he] at h <;> cases h
      exact .exhausted he hr
    · cases h
      exact .unread ‹_›
  | loopStart =>
    simp only [perform] at h
    split_ifs at h with h0
    · obtain ⟨ht, rfl, rfl⟩ := jump_error h
      exact .unclosed h0 ht
    · cases h
  | loopEnd =>
    simp only [perform] at h
    split_ifs at h with h0
    · cases h
    · obtain ⟨ht, rfl, rfl⟩ := jump_error h
      exact .unopened h0 ht
  | _ => cases h

theorem Fails.perform {e : Engine World} {i : Instruction} {s : State} {w w' : World} {fault : Fault}
    (h : e.Fails s w i fault w') : e.perform i s w = ⟨.error fault, s, w'⟩ := by
  cases h with
  | unwritten h => simp only [Engine.perform, h]
  | unread h => simp only [Engine.perform, h]
  | exhausted he h => simp only [Engine.perform, endOfInput, h, he]
  | unclosed h0 h => simp only [Engine.perform, jump, h0, h, if_true]
  | unopened h0 h => simp only [Engine.perform, jump, h0, h, if_false]

theorem Fails.position_eq {e : Engine World} {s : State} {w w' : World} {i : Instruction} {f : Fault}
    (h : e.Fails s w i f w') : f.position? = some s.cursor.position := by
  cases h <;> rfl

/-- A step fails at the instruction under the cursor and leaves the state as it was. -/
theorem fails_of_step_error {e : Engine World} {s : State} {w : World} {fault : Fault}
    (h : (e.step s w).result = .error fault) :
    (e.step s w).state = s ∧ ∃ i, e.program.get? s.cursor.position = some i ∧
      e.Fails s w i fault (e.step s w).world := by
  cases hi : e.program.get? s.cursor.position with
  | none =>
    rw [step_past (Array.getElem?_eq_none_iff.1 hi)] at h
    cases h
  | some i =>
    rcases hp : e.perform i s w with ⟨fault' | _, s', w'⟩
    · rw [step_fault hi hp] at h ⊢
      cases h
      exact ⟨state_of_perform hp, i, rfl, fails_of_perform hp⟩
    · rw [step_ok hi hp] at h
      cases h

/-- An instruction leaves the cursor where it is, or on the target of its bracket. -/
theorem position_of_perform {e : Engine World} {i : Instruction} {s s' : State} {w w' : World}
    (h : e.perform i s w = ⟨.ok (), s', w'⟩) : s'.cursor.position = s.cursor.position ∨
      e.jumps.target? s.cursor.position = some s'.cursor.position := by
  cases i with
  | output =>
    simp only [perform] at h
    split at h <;> cases h
    exact .inl rfl
  | input =>
    simp only [perform] at h
    split at h
    · cases h
      exact .inl rfl
    · cases he : e.eof <;> simp only [endOfInput, he] at h <;> cases h <;> exact .inl rfl
    · cases h
  | loopStart | loopEnd =>
    simp only [perform] at h
    split_ifs at h
    all_goals first
      | exact .inr (jump_ok h).1
      | (cases h; exact .inl rfl)
  | _ =>
    cases h
    exact .inl rfl

/-! An engine with the program's own table. -/

section own

variable {e : Engine World} (hb : JumpTable.build e.program = .ok e.jumps)

include hb

theorem target?_lt_size {k j : ℕ} (h : e.jumps.target? k = some j) : j < e.program.size :=
  ((JumpTable.target?_of_build hb k j).1 h).lt_length.2

theorem exists_target? {k : ℕ} {i : Instruction} (hi : e.program.get? k = some i)
    (hbr : i.isBracket = true) : ∃ j, e.jumps.target? k = some j := by
  rw [← Program.getElem?_toList] at hi
  obtain ⟨j, hj⟩ := (JumpTable.of_build hb).1.exists_partner k i hi hbr
  exact ⟨j, (JumpTable.target?_of_build hb k j).2 hj⟩

theorem lt_size_of_perform {i : Instruction} {s s' : State} {w w' : World}
    (hs : s.cursor.position < e.program.size) (h : e.perform i s w = ⟨.ok (), s', w'⟩) :
    s'.cursor.position < e.program.size := by
  rcases position_of_perform h with hp | hp
  · rwa [hp]
  · exact target?_lt_size hb hp

theorem le_size_of_step {s s' : State} {w w' : World} {st : Status}
    (hs : s.cursor.position ≤ e.program.size) (h : e.step s w = ⟨.ok st, s', w'⟩) :
    s'.cursor.position ≤ e.program.size ∧ st = e.status s' := by
  cases hi : e.program.get? s.cursor.position with
  | none =>
    have hpast : e.program.size ≤ s.cursor.position := Array.getElem?_eq_none_iff.1 hi
    rw [step_past hpast] at h
    cases h
    exact ⟨hs, (status_halted.2 hpast).symm⟩
  | some i =>
    rcases hp : e.perform i s w with ⟨fault | _, t, w''⟩
    · rw [step_fault hi hp] at h
      cases h
    · rw [step_ok hi hp] at h
      cases h
      exact ⟨lt_size_of_perform hb (lt_size_of_get? hi) hp, rfl⟩

/-- A step of such an engine fails only at a hook. -/
theorem fails_of_step {s s' : State} {w w' : World} {fault : Fault}
    (h : e.step s w = ⟨.error fault, s', w'⟩) :
    s' = s ∧ ∃ i, e.program.get? s.cursor.position = some i ∧ e.Fails s w i fault w' ∧
      ∀ p b, fault ≠ .unmatchedBracket p b := by
  obtain ⟨rfl, i, hi, hf⟩ : s' = s ∧ ∃ i, e.program.get? s.cursor.position = some i ∧ e.Fails s w i fault w' := by
    simpa only [h] using fails_of_step_error (e := e) (s := s) (w := w) (congrArg Outcome.result h)
  refine ⟨rfl, i, hi, hf, ?_⟩
  rintro p b rfl
  cases hf with
  | unclosed _ hn | unopened _ hn =>
    obtain ⟨j, hj⟩ := exists_target? hb hi rfl
    rw [hn] at hj
    cases hj

end own

/-! The loop of a run. -/

/-- Between two steps, a run under a control holds this status after so many steps. -/
inductive Passes (e : Engine World) (c : Control World) (st₀ : Status) (s₀ : State) (w₀ : World) :
    Status → ℕ → State → World → Prop
  | start : Passes e c st₀ s₀ w₀ st₀ 0 s₀ w₀
  | step {k : ℕ} {s s' : State} {w w' : World} {st : Status}
      (h : Passes e c st₀ s₀ w₀ .running k s w) (hc : c.refuse? k w = none)
      (hs : e.step s w = ⟨.ok st, s', w'⟩) : Passes e c st₀ s₀ w₀ st (k + 1) s' w'

/-- What a run comes to that may take as many steps as there is fuel, from the last point that it passes
through. -/
inductive Executes (e : Engine World) (c : Control World) (fuel : ℕ) (st₀ : Status) (s₀ : State) (w₀ : World) :
    Run World → Prop
  | halted {k : ℕ} {s : State} {w : World} (h : e.Passes c st₀ s₀ w₀ .halted k s w) (hk : k ≤ fuel) :
      Executes e c fuel st₀ s₀ w₀ ⟨.halted, k, s, w⟩
  | refused {k : ℕ} {s : State} {w : World} {fault : Fault} (h : e.Passes c st₀ s₀ w₀ .running k s w)
      (hk : k ≤ fuel) (hc : c.refuse? k w = some fault) : Executes e c fuel st₀ s₀ w₀ ⟨.stopped fault, k, s, w⟩
  | failed {k : ℕ} {s s' : State} {w w' : World} {fault : Fault} (h : e.Passes c st₀ s₀ w₀ .running k s w)
      (hk : k < fuel) (hc : c.refuse? k w = none) (hs : e.step s w = ⟨.error fault, s', w'⟩) :
      Executes e c fuel st₀ s₀ w₀ ⟨.stopped fault, k, s', w'⟩
  | unfinished {s : State} {w : World} (h : e.Passes c st₀ s₀ w₀ .running fuel s w)
      (hc : c.refuse? fuel w = none) : Executes e c fuel st₀ s₀ w₀ ⟨.unfinished, fuel, s, w⟩

section executes

variable {e : Engine World} {c : Control World} {st₀ st : Status} {s₀ s : State} {w₀ w : World} {k : ℕ}

theorem Passes.executes (h : e.Passes c st₀ s₀ w₀ st k s w) (fuel : ℕ) :
    e.Executes c (k + fuel) st₀ s₀ w₀ (e.run c fuel st k s w) := by
  fun_induction Engine.run e c fuel st k s w with
  | case1 fuel k s w => exact .halted h (Nat.le_add_right k fuel)
  | case2 fuel k s w fault hc => exact .refused h (Nat.le_add_right k fuel) hc
  | case3 k s w hc => exact .unfinished h hc
  | case4 k s w hc fuel fault s' w' hs => exact .failed h (by omega) hc hs
  | case5 k s w hc fuel st s' w' hs ih =>
    have hadd : k + fuel.succ = k + 1 + fuel := by omega
    rw [hadd]
    exact ih (h.step hc hs)

/-- A run goes on from each point that it passes through. -/
theorem Passes.run_eq {fuel : ℕ} (h : e.Passes c st₀ s₀ w₀ st k s w) (hk : k ≤ fuel) :
    e.run c fuel st₀ 0 s₀ w₀ = e.run c (fuel - k) st k s w := by
  induction h with
  | start => rfl
  | @step k s s' w w' st h hc hs ih =>
    obtain ⟨n, hn⟩ : ∃ n, fuel - k = n + 1 := ⟨fuel - k - 1, by omega⟩
    have hn' : fuel - (k + 1) = n := by omega
    rw [ih (by omega), hn, run_ok hc hs, hn']

theorem executes_iff {fuel : ℕ} {r : Run World} :
    e.Executes c fuel st₀ s₀ w₀ r ↔ r = e.run c fuel st₀ 0 s₀ w₀ := by
  constructor
  · intro h
    cases h with
    | halted h hk => rw [h.run_eq hk, run_halted]
    | refused h hk hc => rw [h.run_eq hk, run_refused e hc]
    | @failed k _ _ _ _ _ h hk hc hs =>
      obtain ⟨n, hn⟩ : ∃ n, fuel - k = n + 1 := ⟨fuel - k - 1, by omega⟩
      rw [h.run_eq hk.le, hn, run_fault hc hs]
    | unfinished h hc => rw [h.run_eq le_rfl, Nat.sub_self, run_zero e hc]
  · rintro rfl
    have h : e.Executes c (0 + fuel) st₀ s₀ w₀ (e.run c fuel st₀ 0 s₀ w₀) := Passes.executes .start fuel
    rwa [Nat.zero_add] at h

end executes

/-- Wherever a run of such an engine passes through, its cursor stands inside the program or just
behind it, and the status says which. -/
theorem Passes.inside {e : Engine World} (hb : JumpTable.build e.program = .ok e.jumps)
    {c : Control World} {st₀ st : Status} {s₀ s : State} {w₀ w : World} {k : ℕ}
    (h₀ : s₀.cursor.position ≤ e.program.size ∧ st₀ = e.status s₀) (h : e.Passes c st₀ s₀ w₀ st k s w) :
    s.cursor.position ≤ e.program.size ∧ st = e.status s := by
  induction h with
  | start => exact h₀
  | step _ _ hs ih => exact le_size_of_step hb ih.1 hs

end Engine

theorem Control.refuse?_cases {c : Control World} {k : ℕ} {w : World} {fault : Fault}
    (h : c.refuse? k w = some fault) :
    (fault = .cancelled ∧ c.cancelled w = true) ∨
      ∃ n, fault = .stepLimitExceeded n ∧ c.limit = some n ∧ n ≤ k := by
  unfold refuse? at h
  split_ifs at h with hc
  · exact .inl ⟨(Option.some.inj h).symm, hc⟩
  · split at h
    · rename_i n hn
      split_ifs at h with hk
      exact .inr ⟨n, (Option.some.inj h).symm, hn, hk⟩
    · cases h

namespace Machine

/-- Between two steps, the run of a machine from a fresh tape holds this status after so many steps. -/
def Passes (m : Machine) (mode : Mode) (hooks : Hooks World) (c : Control World) (w₀ : World) :
    Status → ℕ → State → World → Prop :=
  (m.engine hooks mode.eof).Passes c (Status.initial m.program) { tape := { width := mode.width } } w₀

theorem Passes.inside {m : Machine} {mode : Mode} {hooks : Hooks World} {c : Control World}
    {w₀ w : World} {st : Status} {k : ℕ} {s : State} (h : m.Passes mode hooks c w₀ st k s w) :
    s.cursor.position ≤ m.program.size ∧ st = (m.engine hooks mode.eof).status s :=
  Engine.Passes.inside m.built ⟨Nat.zero_le _, (Engine.status_initial _ _).symm⟩ h

theorem Passes.running_iff {m : Machine} {mode : Mode} {hooks : Hooks World} {c : Control World}
    {w₀ w : World} {st : Status} {k : ℕ} {s : State} (h : m.Passes mode hooks c w₀ st k s w) :
    st = .running ↔ s.cursor.position < m.program.size := by
  rw [h.inside.2]
  exact Engine.status_running

/-- What comes of executing a machine from a fresh tape for as many steps as there is fuel. -/
def Executes (m : Machine) (mode : Mode) (hooks : Hooks World) (c : Control World) (fuel : ℕ) (w : World) :
    Run World → Prop :=
  (m.engine hooks mode.eof).Executes c fuel (Status.initial m.program) { tape := { width := mode.width } } w

theorem executes_iff {m : Machine} {mode : Mode} {hooks : Hooks World} {c : Control World} {fuel : ℕ}
    {w : World} {r : Run World} : m.Executes mode hooks c fuel w r ↔ r = m.run mode hooks c fuel w :=
  Engine.executes_iff

section ends

variable {m : Machine} {mode : Mode} {hooks : Hooks World} {c : Control World} {fuel : ℕ} {w : World}
  {r : Run World} (h : m.run mode hooks c fuel w = r)

include h

/-- The state that a run leaves is one that it has passed through. -/
theorem passes_of_run : ∃ st w', m.Passes mode hooks c w st r.steps r.state w' := by
  cases executes_iff.2 h.symm with
  | halted hp => exact ⟨_, _, hp⟩
  | unfinished hp => exact ⟨_, _, hp⟩
  | refused hp => exact ⟨_, _, hp⟩
  | failed hp _ _ hs =>
    obtain ⟨rfl, -⟩ := Engine.fails_of_step m.built hs
    exact ⟨_, _, hp⟩

theorem position_of_halted (hr : r.ending = .halted) : r.state.cursor.position = m.program.size := by
  cases executes_iff.2 h.symm with
  | halted hp =>
    have hp : m.Passes mode hooks c w .halted _ _ _ := hp
    exact le_antisymm hp.inside.1 (Engine.status_halted.1 hp.inside.2.symm)
  | unfinished | refused | failed => cases hr

/-- A run that is stopped by a fault has failed at the instruction under its cursor, or its control has
refused to go on. -/
theorem stopped_cases {fault : Fault} (hr : r.ending = .stopped fault) :
    (∃ w' i, m.Passes mode hooks c w .running r.steps r.state w' ∧
      m.program.get? r.state.cursor.position = some i ∧
      (m.engine hooks mode.eof).Fails r.state w' i fault r.world ∧
      ∀ p b, fault ≠ .unmatchedBracket p b) ∨
    (m.Passes mode hooks c w .running r.steps r.state r.world ∧ c.refuse? r.steps r.world = some fault) := by
  cases executes_iff.2 h.symm with
  | halted | unfinished => cases hr
  | refused hp _ hc =>
    cases hr
    exact .inr ⟨hp, hc⟩
  | failed hp _ _ hs =>
    cases hr
    obtain ⟨rfl, i, hi, hf, hn⟩ := Engine.fails_of_step m.built hs
    exact .inl ⟨_, i, hp, hi, hf, hn⟩

theorem limit_of_exceeded {n : ℕ} (hr : r.ending = .stopped (.stepLimitExceeded n)) : c.limit = some n := by
  rcases stopped_cases h hr with ⟨w', i, -, -, hf, -⟩ | ⟨-, hc⟩
  · cases hf
  · rcases Control.refuse?_cases hc with ⟨hf, -⟩ | ⟨n', hf, hn, -⟩ <;> cases hf
    exact hn

theorem flag_of_cancelled (hr : r.ending = .stopped .cancelled) : c.cancelled r.world = true := by
  rcases stopped_cases h hr with ⟨w', i, -, -, hf, -⟩ | ⟨-, hc⟩
  · cases hf
  · rcases Control.refuse?_cases hc with ⟨-, hflag⟩ | ⟨n, hf, -⟩
    · exact hflag
    · cases hf

end ends

/-- A run of a machine stays inside its program and reports only what has happened. Between two steps
the cursor stands at most behind the last instruction, and the run goes on just when it stands on one;
performing that leaves a cursor that is moved on to a place no further than behind the last. A run that
halts has its cursor there. The fault that stops a run is no bracket without a partner; one that names a
position stands for an answer that a hook has just given to the input or output instruction there; and
the others are what the control says. -/
theorem run_stays_inside (m : Machine) (mode : Mode) (hooks : Hooks World) (c : Control World) (w : World) :
    (∀ st k s w', m.Passes mode hooks c w st k s w' →
      s.cursor.position ≤ m.program.size ∧ (st = .running ↔ s.cursor.position < m.program.size) ∧
      (st = .running → ∃ i, m.program.get? s.cursor.position = some i ∧
        ∀ s' w'', (m.engine hooks mode.eof).perform i s w' = ⟨.ok (), s', w''⟩ →
          s'.cursor.advance.position ≤ m.program.size)) ∧
    ∀ fuel r, m.run mode hooks c fuel w = r →
      (∃ st w', m.Passes mode hooks c w st r.steps r.state w') ∧
      (r.ending = .halted → r.state.cursor.position = m.program.size) ∧
      (∀ p b, r.ending ≠ .stopped (.unmatchedBracket p b)) ∧
      (∀ p, r.ending = .stopped (.inputExhausted p) →
        mode.eof = .error ∧ p < m.program.size ∧ m.program.get? p = some .input ∧
        ∃ w', m.Passes mode hooks c w .running r.steps r.state w' ∧ r.state.cursor.position = p ∧
          hooks.read w' = (.endOfInput, r.world)) ∧
      (∀ p reason, r.ending = .stopped (.io p reason) → p < m.program.size ∧
        ∃ w', m.Passes mode hooks c w .running r.steps r.state w' ∧ r.state.cursor.position = p ∧
          (m.program.get? p = some .input ∧ hooks.read w' = (.failure reason, r.world) ∨
            m.program.get? p = some .output ∧
              hooks.write (Tape.outputByte r.state.tape.read) w' = (.failure reason, r.world))) ∧
      (∀ n, r.ending = .stopped (.stepLimitExceeded n) → c.limit = some n) ∧
      (r.ending = .stopped .cancelled → c.cancelled r.world = true) := by
  refine ⟨fun st k s w' h => ⟨h.inside.1, h.running_iff, fun hst => ?_⟩, fun fuel r h =>
    ⟨passes_of_run h, position_of_halted h, ?_, ?_, ?_, fun n => limit_of_exceeded h, flag_of_cancelled h⟩⟩
  · have hlt := h.running_iff.1 hst
    have hi : m.program.get? s.cursor.position = some _ := Array.getElem?_eq_getElem hlt
    exact ⟨_, hi, fun s' w'' hp => Engine.lt_size_of_perform (e := m.engine hooks mode.eof) m.built hlt hp⟩
  · intro p b hr
    rcases stopped_cases h hr with ⟨w', i, -, -, -, hn⟩ | ⟨-, hc⟩
    · exact hn p b rfl
    · rcases Control.refuse?_cases hc with ⟨hf, -⟩ | ⟨n, hf, -⟩ <;> cases hf
  · intro p hr
    rcases stopped_cases h hr with ⟨w', i, hp, hi, hf, -⟩ | ⟨-, hc⟩
    · cases hf with
      | exhausted he hread => exact ⟨he, Engine.lt_size_of_get? hi, hi, w', hp, rfl, hread⟩
    · rcases Control.refuse?_cases hc with ⟨hf, -⟩ | ⟨n, hf, -⟩ <;> cases hf
  · intro p reason hr
    rcases stopped_cases h hr with ⟨w', i, hp, hi, hf, -⟩ | ⟨-, hc⟩
    · cases hf with
      | unread hread => exact ⟨Engine.lt_size_of_get? hi, w', hp, rfl, .inl ⟨hi, hread⟩⟩
      | unwritten hwrite => exact ⟨Engine.lt_size_of_get? hi, w', hp, rfl, .inr ⟨hi, hwrite⟩⟩
    · rcases Control.refuse?_cases hc with ⟨hf, -⟩ | ⟨n, hf, -⟩ <;> cases hf

/-- `+,` without input, where its end is an error, stops at the `,` after one step, and the last thing
that happened is that a read met the end. -/
theorem run_stays_inside_exhausted : ∃ m : Machine, m.program = .ofList [.increment, .input] ∧
    ∃ r, m.run ⟨.byte, .error⟩ Device.hooks {} 2 {} = r ∧ r.ending = .stopped (.inputExhausted 1) ∧
      r.steps = 1 ∧ m.program.get? 1 = some .input ∧
      ∃ w', m.Passes ⟨.byte, .error⟩ Device.hooks {} {} .running r.steps r.state w' ∧
        r.state.cursor.position = 1 ∧ Device.hooks.read w' = (.endOfInput, r.world) := by
  let m : Machine := ⟨.ofList [.increment, .input], ⟨#[none, none]⟩, rfl⟩
  have h := (run_stays_inside m ⟨.byte, .error⟩ Device.hooks {} {}).2 2 _ rfl
  obtain ⟨-, -, hi, hread⟩ := h.2.2.2.1 1 rfl
  exact ⟨m, rfl, _, rfl, rfl, rfl, hi, hread⟩

end Machine

end TapeMachine
