import TapeMachine.Proofs.Refinement

/-! Loops whose rounds are known. A loop that gets round leads from one tape and world to the next, so what its
body does is told by a sequence of both, at a fixed cost for each round. A loop that goes through the sequence
up to a cell that is 0 is left there, and one that never meets such a cell is at the start of its next round
for ever. What a whole program means from a fresh tape is what a machine returns. -/

namespace TapeMachine

variable {World : Type} {t : ℕ → Tape} {w : ℕ → World} {k n : ℕ}

namespace Meaning

variable {M : Meaning World}

/-- What the later rounds come to is what all of them come to, if the first `n` go through the sequence. -/
theorem Rounds.behind (hM : ∀ i < n, M (t i) (w i) k (.completed (t (i + 1)) (w (i + 1))))
    (hne : ∀ i < n, (t (i + 1)).read ≠ 0) {k' : ℕ} {r : Finish World} (h : M.Rounds (t n) (w n) k' r) :
    M.Rounds (t 0) (w 0) (n * (k + 1) + k') r := by
  induction n generalizing k' with
  | zero => rwa [Nat.zero_mul, Nat.zero_add]
  | succ n ih =>
    have hlast : M.Rounds (t n) (w n) (k + 1 + k') r := .again (hM n n.lt_succ_self) (hne n n.lt_succ_self) h
    have hall := ih (fun i hi => hM i (hi.trans n.lt_succ_self)) (fun i hi => hne i (hi.trans n.lt_succ_self)) hlast
    rwa [Nat.succ_mul, Nat.add_assoc]

/-- A loop goes through the sequence up to the first cell that is 0. -/
theorem Loop.through (hM : ∀ i < n, M (t i) (w i) k (.completed (t (i + 1)) (w (i + 1))))
    (hne : ∀ i < n, (t i).read ≠ 0) (h0 : (t n).read = 0) :
    M.Loop (t 0) (w 0) (1 + n * (k + 1)) (.completed (t n) (w n)) := by
  cases n with
  | zero =>
    rw [Nat.zero_mul]
    exact .left h0
  | succ n =>
    have hlast : M.Rounds (t n) (w n) (k + 1) (.completed (t (n + 1)) (w (n + 1))) :=
      .last (hM n n.lt_succ_self) h0
    rw [Nat.succ_mul]
    exact .entered (hne 0 n.succ_pos) (Rounds.behind (fun i hi => hM i (hi.trans n.lt_succ_self))
      (fun i hi => hne (i + 1) (Nat.succ_lt_succ hi)) hlast)

end Meaning

/-- The engine goes through the first `n` rounds of a loop, and is then at the start of the next one. -/
theorem Engine.LoopAt.rounds {e : Engine World} {start stop : ℕ} (h : e.LoopAt start stop) {M : Meaning World}
    (hreal : e.Realises (start + 1) stop M)
    (hM : ∀ i < n, M (t i) (w i) k (.completed (t (i + 1)) (w (i + 1))))
    (hne : ∀ i < n, (t (i + 1)).read ≠ 0) (m : ℕ) :
    e.next^[n * (k + 1)] (e.stand m ⟨t 0, ⟨start + 1⟩⟩ (w 0)) =
      e.stand (m + n * (k + 1)) ⟨t n, ⟨start + 1⟩⟩ (w n) := by
  induction n with
  | zero =>
    rw [Nat.zero_mul]
    rfl
  | succ n ih =>
    have hfirst := ih (fun i hi => hM i (hi.trans n.lt_succ_self)) (fun i hi => hne i (hi.trans n.lt_succ_self))
    rw [Nat.succ_mul, Nat.add_comm (n * (k + 1)), Function.iterate_add_apply, hfirst,
      h.round hreal (hM n n.lt_succ_self) (hne n n.lt_succ_self), Nat.add_assoc, Nat.add_comm (n * (k + 1))]

namespace Machine

variable {m : Machine} (mode : Mode) {hooks : Hooks World} {w w' : World} {t' : Tape} {k : ℕ} {b : Block}

/-- A machine is realised from end to end by the tree of which its program is the text. -/
theorem realises (hooks : Hooks World) (eof : EofPolicy) (hb : b.text = m.program.toList) :
    (m.engine hooks eof).Realises 0 m.program.size (b.meaning hooks eof 0) :=
  Engine.realises_program (e := m.engine hooks eof) m.built hb

theorem returns_completed (hb : b.text = m.program.toList)
    (hM : b.meaning hooks mode.eof 0 { width := mode.width } w k (.completed t' w')) :
    m.Returns mode hooks {} w ⟨.halted, k, ⟨t', ⟨m.program.size⟩⟩, w'⟩ := by
  refine ⟨over_halted _ _ _, k, ?_⟩
  rw [run_free]
  exact (realises hooks mode.eof hb).run_completed hM

theorem returns_failed (hb : b.text = m.program.toList) {fault : Fault}
    (hM : b.meaning hooks mode.eof 0 { width := mode.width } w k (.failed fault t' w')) :
    ∃ q, m.Returns mode hooks {} w ⟨.stopped fault, k, ⟨t', ⟨q⟩⟩, w'⟩ := by
  obtain ⟨q, -, hrun⟩ := (realises hooks mode.eof hb).run_failed hM
  refine ⟨q, over_stopped _ _ _ _, k + 1, ?_⟩
  rw [run_free]
  exact hrun

end Machine

end TapeMachine
