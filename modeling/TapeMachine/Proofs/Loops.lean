import TapeMachine.Proofs.Frame

/-! The loops of a program as regions of it. A bracket inside a loop has its partner inside and one outside
has it outside, so the only jumps across the border of a loop are those of its own two brackets. A step gets
into the body from the opening bracket, on a cell that is not 0, and out of it from the closing one, on a cell
that is 0. A run is such steps one behind the other, so whenever it is inside, it has come in by the one way,
and to be outside again it must have gone out by the other. -/

namespace TapeMachine

/-- The cursor is in the body of the loop from `i` to `j` or on its closing bracket. -/
def State.Within (s : State) (i j : ℕ) : Prop := i < s.cursor.position ∧ s.cursor.position ≤ j

instance (s : State) (i j : ℕ) : Decidable (s.Within i j) := inferInstanceAs (Decidable (_ ∧ _))

theorem Partners.outside {l : List Instruction} {i j i' j' : ℕ} (h : Encloses l i j)
    (h' : Partners l i' j') (hout : i' < i ∨ j < i') : j' < i ∨ j < j' := by
  have hij := h.1
  by_contra hin
  -- the partner is inside, so its own partner is inside, too; on the border it belongs to the loop
  rcases Nat.lt_trichotomy i j' with hi | rfl | hi
  · rcases Nat.lt_or_eq_of_le (show j' ≤ j by omega) with hj | rfl
    · have := Partners.inside h h'.symm hi hj
      omega
    · have := Partners.unique (.inr h) h'.symm
      omega
  · have := Partners.unique (.inl h) h'.symm
    omega
  · omega

variable {World : Type}

namespace Engine

section step

variable {e : Engine World} (hb : JumpTable.build e.program = .ok e.jumps) {i j : ℕ}
  (hij : Encloses e.program.toList i j) {s : State} {w : World} {st : Status}
  (hs : s.cursor.position < e.program.size) (hok : (e.step s w).result = .ok st)

include hb hs hok

/-- A step goes on behind the partner of a bracket that has to jump, and else behind its instruction. -/
theorem landing_cases :
    (∃ b target, e.Due s b ∧ Partners e.program.toList s.cursor.position target ∧
      (e.step s w).state.cursor.position = target + 1) ∨
    ((∀ b, ¬ e.Due s b) ∧ (e.step s w).state.cursor.position = s.cursor.position + 1) := by
  obtain ⟨hdue, hnot⟩ := cursor_of_step_ok hs hok
  by_cases hd : ∃ b, e.Due s b
  · obtain ⟨b, hd⟩ := hd
    obtain ⟨target, ht, hpos⟩ := hdue b hd
    exact .inl ⟨b, target, hd, (JumpTable.target?_of_build hb _ _).1 ht, hpos⟩
  · have hd : ∀ b, ¬ e.Due s b := fun b hd' => hd ⟨b, hd'⟩
    exact .inr ⟨hd, hnot hd⟩

include hij

/-- From inside a loop a step stays inside, or leaves it from the closing bracket on a cell that is 0. -/
theorem landing_of_within (hin : s.Within i j) :
    i < (e.step s w).state.cursor.position ∧ (e.step s w).state.cursor.position ≤ j + 1 ∧
      ((e.step s w).state.cursor.position = j + 1 → s.cursor.position = j ∧ s.tape.read = 0) := by
  obtain ⟨hi, hj⟩ := hin
  rcases landing_cases hb hs hok with ⟨b, target, -, hp, hpos⟩ | ⟨hnot, hpos⟩
  · rcases Nat.lt_or_eq_of_le hj with hlt | heq
    · have := Partners.inside hij hp hi hlt
      omega
    · rw [heq] at hp
      have := Partners.unique (.inr hij) hp
      omega
  · refine ⟨by omega, by omega, fun hout => ?_⟩
    have heq : s.cursor.position = j := by omega
    refine ⟨heq, ?_⟩
    by_contra h0
    refine hnot .closing ⟨?_, h0⟩
    rw [heq, ← Program.getElem?_toList]
    exact hij.2.2.1

theorem landing_of_opening (heq : s.cursor.position = i) :
    (s.tape.read ≠ 0 → (e.step s w).state.cursor.position = i + 1) ∧
    (s.tape.read = 0 → (e.step s w).state.cursor.position = j + 1) := by
  have hget : e.program.get? s.cursor.position = some .loopStart := by
    rw [heq, ← Program.getElem?_toList]
    exact hij.2.1
  rcases landing_cases hb hs hok with ⟨b, target, hd, hp, hpos⟩ | ⟨hnot, hpos⟩
  · have h0 : s.tape.read = 0 := by
      cases b with
      | opening => exact hd.2
      | closing =>
        have := hget.symm.trans hd.1
        simp at this
    rw [heq] at hp
    have := Partners.unique (.inl hij) hp
    exact ⟨fun hne => absurd h0 hne, fun _ => by omega⟩
  · have h0 : s.tape.read ≠ 0 := fun h0 => hnot .opening ⟨hget, h0⟩
    exact ⟨fun _ => by omega, fun h => absurd h h0⟩

theorem landing_of_outside (hout : s.cursor.position < i ∨ j < s.cursor.position) :
    ¬ (e.step s w).state.Within i j := by
  have := hij.1
  rintro ⟨hi, hj⟩
  rcases landing_cases hb hs hok with ⟨b, target, -, hp, hpos⟩ | ⟨-, hpos⟩
  · have := Partners.outside hij hp hout
    omega
  · omega

theorem opening_of_enters (hout : ¬ s.Within i j) (hin : (e.step s w).state.Within i j) :
    s.cursor.position = i ∧ s.tape.read ≠ 0 := by
  have heq : s.cursor.position = i := by
    by_contra hne
    have hfar : s.cursor.position < i ∨ j < s.cursor.position := by
      unfold State.Within at hout
      omega
    exact landing_of_outside hb hij hs hok hfar hin
  refine ⟨heq, fun h0 => ?_⟩
  have hpos := (landing_of_opening hb hij hs hok heq).2 h0
  have := hin.2
  omega

theorem closing_of_leaves (hin : s.Within i j) (hout : ¬ (e.step s w).state.Within i j) :
    s.cursor.position = j ∧ s.tape.read = 0 ∧ (e.step s w).state.cursor.position = j + 1 := by
  obtain ⟨hi, hj, hend⟩ := landing_of_within hb hij hs hok hin
  have hpos : (e.step s w).state.cursor.position = j + 1 := by
    unfold State.Within at hout
    omega
  exact ⟨(hend hpos).1, (hend hpos).2, hpos⟩

end step

theorem Passes.unique {e : Engine World} {c : Control World} {st₀ st st' : Status} {s₀ s s' : State}
    {w₀ w w' : World} {k : ℕ} (h : e.Passes c st₀ s₀ w₀ st k s w) (h' : e.Passes c st₀ s₀ w₀ st' k s' w') :
    st = st' ∧ s = s' ∧ w = w' := by
  induction h generalizing st' s' w' with
  | start =>
    cases h'
    exact ⟨rfl, rfl, rfl⟩
  | step _ _ hs ih =>
    cases h' with
    | step h' _ hs' =>
      obtain ⟨-, rfl, rfl⟩ := ih h'
      rw [hs] at hs'
      cases hs'
      exact ⟨rfl, rfl, rfl⟩

end Engine

namespace Machine

/-- Between the points after `a` steps and after `b`, both included, the run passes only through states of
`P`. -/
def Remains (m : Machine) (mode : Mode) (hooks : Hooks World) (c : Control World) (w₀ : World)
    (P : State → Prop) (a b : ℕ) : Prop :=
  ∀ k, a ≤ k → k ≤ b → ∀ st s w, m.Passes mode hooks c w₀ st k s w → P s

section run

variable {m : Machine} {mode : Mode} {hooks : Hooks World} {c : Control World} {w₀ : World} {P : State → Prop}

theorem Passes.unique {st st' : Status} {k : ℕ} {s s' : State} {w w' : World}
    (h : m.Passes mode hooks c w₀ st k s w) (h' : m.Passes mode hooks c w₀ st' k s' w') : s = s' :=
  (Engine.Passes.unique h h').2.1

theorem remains_single {st : Status} {k : ℕ} {s : State} {w : World}
    (h : m.Passes mode hooks c w₀ st k s w) (hs : P s) : m.Remains mode hooks c w₀ P k k := by
  intro k' hle hge st' s' w' h'
  obtain rfl : k' = k := by omega
  exact h.unique h' ▸ hs

theorem Remains.succ {a b : ℕ} (hr : m.Remains mode hooks c w₀ P a b) {st : Status} {s : State} {w : World}
    (h : m.Passes mode hooks c w₀ st (b + 1) s w) (hs : P s) : m.Remains mode hooks c w₀ P a (b + 1) := by
  intro k hle hge st' s' w' h'
  rcases Nat.lt_or_eq_of_le hge with hlt | rfl
  · exact hr k hle (by omega) st' s' w' h'
  · exact h.unique h' ▸ hs

variable {i j : ℕ} (hij : Encloses m.program.toList i j)

include hij

/-- A run that is inside a loop has come in by the opening bracket, on a cell that was not 0, and has not
left since. -/
theorem Passes.exists_entry {st : Status} {n : ℕ} {s : State} {w : World}
    (h : m.Passes mode hooks c w₀ st n s w) (hin : s.Within i j) :
    ∃ k < n, ∃ s₁ w₁, m.Passes mode hooks c w₀ .running k s₁ w₁ ∧
      s₁.cursor.position = i ∧ s₁.tape.read ≠ 0 ∧
      m.Remains mode hooks c w₀ (fun s => s.Within i j) (k + 1) n := by
  induction h with
  | start =>
    have := hin.1
    simp at this
  | @step n s s' w w' st hp hc hs ih =>
    have hnext : m.Passes mode hooks c w₀ st (n + 1) s' w' := .step hp hc hs
    -- a run that was inside before its last step has come in earlier; any other has just done so
    by_cases hwas : s.Within i j
    · obtain ⟨k, hk, s₁, w₁, h₁, hpos, hread, hrem⟩ := ih hwas
      exact ⟨k, by omega, s₁, w₁, h₁, hpos, hread, hrem.succ hnext hin⟩
    · have hlt := Machine.Passes.running_iff (h := hp) |>.1 rfl
      obtain ⟨hpos, hread⟩ := Engine.opening_of_enters (e := m.engine hooks mode.eof) m.built hij hlt
        (congrArg Outcome.result hs) hwas (by rw [hs]; exact hin)
      exact ⟨n, n.lt_succ_self, s, w, hp, hpos, hread, remains_single hnext hin⟩

/-- A run that has been inside a loop is still there, or has left it by the closing bracket, on a cell that
was 0. -/
theorem Passes.remains_or_exit {st : Status} {n : ℕ} {s : State} {w : World}
    (h : m.Passes mode hooks c w₀ st n s w) {k : ℕ} (hk : k ≤ n) {st₀ : Status} {s₀ : State} {w' : World}
    (h₀ : m.Passes mode hooks c w₀ st₀ k s₀ w') (hin : s₀.Within i j) :
    m.Remains mode hooks c w₀ (fun s => s.Within i j) k n ∨
    ∃ l, k ≤ l ∧ l < n ∧ ∃ s₁ w₁, m.Passes mode hooks c w₀ .running l s₁ w₁ ∧
      s₁.cursor.position = j ∧ s₁.tape.read = 0 ∧
      m.Remains mode hooks c w₀ (fun s => s.Within i j) k l ∧
      ∀ st s w, m.Passes mode hooks c w₀ st (l + 1) s w → s.cursor.position = j + 1 := by
  induction h with
  | start =>
    obtain rfl : k = 0 := by omega
    exact .inl (remains_single h₀ hin)
  | @step n s s' w w'' st hp hc hs ih =>
    have hnext : m.Passes mode hooks c w₀ st (n + 1) s' w'' := .step hp hc hs
    rcases Nat.lt_or_eq_of_le hk with hlt | rfl
    -- an exit once found remains one, and without one the last step is the first that can be it
    · rcases ih (by omega) with hrem | ⟨l, hkl, hln, hl⟩
      · by_cases hstay : s'.Within i j
        · exact .inl (hrem.succ hnext hstay)
        · have hwas : s.Within i j := hrem n (by omega) le_rfl _ _ _ hp
          have hsize := Machine.Passes.running_iff (h := hp) |>.1 rfl
          obtain ⟨hpos, hread, hend⟩ := Engine.closing_of_leaves (e := m.engine hooks mode.eof) m.built hij
            hsize (congrArg Outcome.result hs) hwas (by rw [hs]; exact hstay)
          refine .inr ⟨n, by omega, n.lt_succ_self, s, w, hp, hpos, hread, hrem, fun st₁ s₁ w₁ h₁ => ?_⟩
          rw [← hnext.unique h₁, ← hend, hs]
      · exact .inr ⟨l, hkl, by omega, hl⟩
    · exact .inl (remains_single h₀ hin)

end run

/-- Loops have one entry and one exit. Take two brackets that the table of a machine matches, the `[` at `i`
and the `]` at `j`. A step that does not fail keeps a cursor inside that was inside, unless it stands on the
`]` and the cell is 0, and then puts it behind the `]`. From the `[` it goes inside or behind the loop, as the
cell says, and from anywhere else it does not get inside. So a run that is inside the loop has come from the
`[`, where the cell was not 0, and has been inside since; and one that has been inside and is so no longer has
gone from there to the `]`, where the cell was 0, and on behind it. -/
theorem loop_single_entry_exit (m : Machine) {i j : ℕ} (hij : m.jumps.target? i = some j) (hlt : i < j) :
    (∀ (World : Type) (hooks : Hooks World) (eof : EofPolicy) (s : State) (w : World) (st : Status),
      s.cursor.position < m.program.size → ((m.engine hooks eof).step s w).result = .ok st →
      let c := s.cursor.position
      let c' := ((m.engine hooks eof).step s w).state.cursor.position
      (i < c → c ≤ j → i < c' ∧ c' ≤ j + 1 ∧ (c' = j + 1 → c = j ∧ s.tape.read = 0)) ∧
      (c = i → (s.tape.read ≠ 0 → c' = i + 1) ∧ (s.tape.read = 0 → c' = j + 1)) ∧
      (c < i ∨ j < c → ¬ (i < c' ∧ c' ≤ j))) ∧
    ∀ (World : Type) (mode : Mode) (hooks : Hooks World) (c : Control World) (w₀ : World) (st : Status)
      (n : ℕ) (s : State) (w : World), m.Passes mode hooks c w₀ st n s w →
      (s.Within i j → ∃ k < n, ∃ s₁ w₁, m.Passes mode hooks c w₀ .running k s₁ w₁ ∧
        s₁.cursor.position = i ∧ s₁.tape.read ≠ 0 ∧
        m.Remains mode hooks c w₀ (fun s => s.Within i j) (k + 1) n) ∧
      (¬ s.Within i j → ∀ k ≤ n, ∀ st₀ s₀ w', m.Passes mode hooks c w₀ st₀ k s₀ w' → s₀.Within i j →
        ∃ l, k ≤ l ∧ l < n ∧ ∃ s₁ w₁, m.Passes mode hooks c w₀ .running l s₁ w₁ ∧
          s₁.cursor.position = j ∧ s₁.tape.read = 0 ∧
          m.Remains mode hooks c w₀ (fun s => s.Within i j) k l ∧
          ∀ st s w, m.Passes mode hooks c w₀ st (l + 1) s w → s.cursor.position = j + 1) := by
  have henc : Encloses m.program.toList i j := by
    rcases (JumpTable.target?_of_build m.built i j).1 hij with h | h
    · exact h
    · have := h.1
      omega
  refine ⟨fun World hooks eof s w st hs hok => ⟨fun hi hj => ?_, fun heq => ?_, fun hout => ?_⟩,
    fun World mode hooks c w₀ st n s w h =>
      ⟨fun hin => h.exists_entry henc hin, fun hout k hk st₀ s₀ w' h₀ hin => ?_⟩⟩
  · exact Engine.landing_of_within (e := m.engine hooks eof) m.built henc hs hok ⟨hi, hj⟩
  · exact Engine.landing_of_opening (e := m.engine hooks eof) m.built henc hs hok heq
  · exact Engine.landing_of_outside (e := m.engine hooks eof) m.built henc hs hok hout
  · rcases h.remains_or_exit henc hk h₀ hin with hrem | hleft
    · exact absurd (hrem n hk le_rfl _ _ _ h) hout
    · exact hleft

/-- In `+[[-]]` the inner `]` on a cell that is 0 leads to the outer `]`, so it does not leave the outer loop.
The run is inside that after three steps and no longer after six, and has gone out by the outer `]`. -/
theorem loop_single_entry_exit_nested : ∃ m : Machine, m.program = .ofSource "+[[-]]" ∧
    m.jumps.target? 1 = some 5 ∧ 1 < 5 ∧
    (∃ c', ((m.engine Device.hooks .zero).step { cursor := ⟨4⟩ } {}).state.cursor.position = c' ∧
      c' = 5 ∧ 1 < c' ∧ c' ≤ 6) ∧
    ∃ s₃ w₃ s₆ w₆, m.Passes {} Device.hooks {} {} .running 3 s₃ w₃ ∧ s₃.Within 1 5 ∧
      m.Passes {} Device.hooks {} {} .halted 6 s₆ w₆ ∧ ¬ s₆.Within 1 5 ∧
      (∃ k < 3, ∃ s w, m.Passes {} Device.hooks {} {} .running k s w ∧ s.cursor.position = 1 ∧
        s.tape.read ≠ 0) ∧
      ∃ l, 3 ≤ l ∧ l < 6 ∧ ∃ s w, m.Passes {} Device.hooks {} {} .running l s w ∧ s.cursor.position = 5 ∧
        s.tape.read = 0 := by
  let m : Machine := ⟨.ofSource "+[[-]]", ⟨#[none, some 5, some 4, none, some 2, some 1]⟩, by decide⟩
  obtain ⟨hstep, hrun⟩ := loop_single_entry_exit m (i := 1) (j := 5) rfl (by decide)
  obtain ⟨hlow, hhigh, -⟩ := (hstep Device Device.hooks .zero { cursor := ⟨4⟩ } {} .running (by decide) rfl).1
    (by decide) (by decide)
  have h₃ : m.Passes {} Device.hooks {} {} .running 3 _ _ :=
    .step (.step (.step .start rfl rfl) rfl rfl) rfl rfl
  have h₆ : m.Passes {} Device.hooks {} {} .halted 6 _ _ :=
    .step (.step (.step h₃ rfl rfl) rfl rfl) rfl rfl
  obtain ⟨k, hk, s, w, hpass, hpos, hread, -⟩ := (hrun _ _ _ _ _ _ _ _ _ h₃).1 (by decide)
  obtain ⟨l, hle, hlt, s', w', hpass', hpos', hread', -⟩ :=
    (hrun _ _ _ _ _ _ _ _ _ h₆).2 (by decide) 3 (by decide) _ _ _ h₃ (by decide)
  exact ⟨m, rfl, rfl, by decide, ⟨_, rfl, by decide, hlow, hhigh⟩, _, _, _, _, h₃, by decide, h₆, by decide,
    ⟨k, hk, s, w, hpass, hpos, hread⟩, l, hle, hlt, s', w', hpass', hpos', hread'⟩

end Machine

end TapeMachine
