import TapeMachine.Proofs.Block
import TapeMachine.Proofs.Matching
import TapeMachine.Proofs.Run

/-! The engine does what the tree of its program means. `Realises` says of a part of a program, given
by the positions where it starts and ends, that the engine goes through it as a meaning says, with as
many steps as that costs, and that it never gets to an end of which the meaning knows nothing. Each
way to put meanings together keeps it, so it holds of every block at its place in the program. -/

namespace TapeMachine

variable {World : Type}

/-- The fault comes from a hook at this position: exhausted input or a failure. -/
def Fault.AtHook (fault : Fault) (position : ℕ) : Prop :=
  fault = .inputExhausted position ∨ ∃ reason, fault = .io position reason

theorem Fault.AtHook.unique {fault : Fault} {p q : ℕ} (h : fault.AtHook p) (h' : fault.AtHook q) : p = q := by
  rcases h with rfl | ⟨reason, rfl⟩ <;> rcases h' with h' | ⟨_, h'⟩ <;> cases h' <;> rfl

theorem Primitive.act_fault {hooks : Hooks World} {eof : EofPolicy} {p : Primitive} {position : ℕ}
    {t : Tape} {w w' : World} {fault : Fault} (h : p.act hooks eof position t w = (.error fault, w')) :
    fault.AtHook position := by
  cases p <;> simp only [act] at h
  case output =>
    split at h
    · cases h
    · cases h; exact .inr ⟨_, rfl⟩
  case input =>
    split at h
    · cases h
    · cases h; exact .inr ⟨_, rfl⟩
    · split at h
      · cases h
      · cases h
      · cases h; exact .inl rfl
  all_goals cases h

namespace Engine

/-- On an instruction that is no bracket, the engine does what its primitive does to the tape, and leaves
the tape as it was where that fails. -/
theorem perform_instruction (e : Engine World) (p : Primitive) (position : ℕ) (t : Tape) (w : World) :
    e.perform p.instruction ⟨t, ⟨position⟩⟩ w =
      match p.act e.hooks e.eof position t w with
      | (.ok t', w') => ⟨.ok (), ⟨t', ⟨position⟩⟩, w'⟩
      | (.error fault, w') => ⟨.error fault, ⟨t, ⟨position⟩⟩, w'⟩ := by
  cases p with
  | output =>
    simp only [Primitive.instruction, perform, Primitive.act]
    rcases e.hooks.write (Tape.outputByte t.read) w with ⟨_ | _, w'⟩ <;> rfl
  | input =>
    simp only [Primitive.instruction, perform, Primitive.act, endOfInput]
    rcases e.hooks.read w with ⟨_ | _ | _, w'⟩
    · rfl
    · cases e.eof <;> rfl
    · rfl
  | _ => rfl

/-- The engine goes from one position to another as a meaning says. -/
structure Realises (e : Engine World) (start stop : ℕ) (M : Meaning World) : Prop where
  completed : ∀ {t w k t' w'}, M t w k (.completed t' w') →
    ∀ n, e.next^[k] (e.stand n ⟨t, ⟨start⟩⟩ w) = e.stand (n + k) ⟨t', ⟨stop⟩⟩ w'
  failed : ∀ {t w k fault t' w'}, M t w k (.failed fault t' w') →
    ∃ q, fault.AtHook q ∧
      ∀ n, e.next^[k + 1] (e.stand n ⟨t, ⟨start⟩⟩ w) = ⟨.stopped fault, n + k, ⟨t', ⟨q⟩⟩, w'⟩
  progress : ∀ {m n t w}, (e.next^[m] (e.stand n ⟨t, ⟨start⟩⟩ w)).Over → ∃ k r, M t w k r

theorem realises_skip (e : Engine World) (position : ℕ) : e.Realises position position Meaning.Skip where
  completed h n := by
    cases h
    rfl
  failed h := by cases h
  progress _ := ⟨_, _, .skip⟩

theorem realises_act {e : Engine World} {p : Primitive} {position : ℕ}
    (hp : e.program.get? position = some p.instruction) :
    e.Realises position (position + 1) (Meaning.Act (p.act e.hooks e.eof position)) where
  completed h n := by
    cases h with
    | completed h => exact next_stand hp (by rw [perform_instruction, h]) n
  failed h := by
    cases h with
    | failed h =>
      have hf := p.act_fault h
      exact ⟨position, hf, fun n => next_stand_fault hp (by rw [perform_instruction, h]) n⟩
  progress {m n t w} _ := by
    rcases ha : p.act e.hooks e.eof position t w with ⟨r, w'⟩
    cases r with
    | ok t' => exact ⟨_, _, .completed ha⟩
    | error fault => exact ⟨_, _, .failed ha⟩

theorem Realises.then {e : Engine World} {start mid stop : ℕ} {M N : Meaning World}
    (hM : e.Realises start mid M) (hN : e.Realises mid stop N) : e.Realises start stop (M.Then N) where
  completed h n := by
    cases h with
    | @both _ _ _ _ k k' _ h h' =>
      rw [Nat.add_comm k k', Function.iterate_add_apply, hM.completed h, hN.completed h', Nat.add_assoc,
        Nat.add_comm k k']
  failed h := by
    cases h with
    | @both _ _ _ _ k k' _ h h' =>
      obtain ⟨q, hq, hrun⟩ := hN.failed h'
      refine ⟨q, hq, fun n => ?_⟩
      rw [show k + k' + 1 = k' + 1 + k by omega, Function.iterate_add_apply, hM.completed h, hrun,
        Nat.add_assoc]
    | failed h => exact hM.failed h
  progress {m n t w} ho := by
    obtain ⟨k, r, h⟩ := hM.progress ho
    cases r with
    | failed fault t' w' => exact ⟨_, _, .failed h⟩
    | completed t' w' =>
      have ho' : (e.next^[m] (e.stand (n + k) ⟨t', ⟨mid⟩⟩ w')).Over := by
        rw [← hM.completed h, ← Function.iterate_add_apply, iterate_of_le ho (Nat.le_add_right m k)]
        exact ho
      obtain ⟨k', r, h'⟩ := hN.progress ho'
      exact ⟨_, _, .both h h'⟩

/-! The brackets of a loop: `[` at `start`, and `]` at `stop` with the targets of both. -/

section loop

variable {e : Engine World} {start stop : ℕ}

/-- A loop of the program with its two targets in the engine's table. -/
structure LoopAt (e : Engine World) (start stop : ℕ) : Prop where
  lt : start < stop
  opening : e.program.get? start = some .loopStart
  closing : e.program.get? stop = some .loopEnd
  forward : e.jumps.target? start = some stop
  backward : e.jumps.target? stop = some start

theorem LoopAt.opening_left (h : e.LoopAt start stop) {t : Tape} (h0 : t.read = 0) (n : ℕ) (w : World) :
    e.next (e.stand n ⟨t, ⟨start⟩⟩ w) = e.stand (n + 1) ⟨t, ⟨stop + 1⟩⟩ w := by
  have hp : e.perform .loopStart ⟨t, ⟨start⟩⟩ w = ⟨.ok (), ⟨t, ⟨stop⟩⟩, w⟩ := by
    simp [perform, jump, h0, h.forward, Cursor.jumpTo]
  exact next_stand h.opening hp n

theorem LoopAt.opening_entered (h : e.LoopAt start stop) {t : Tape} (h0 : t.read ≠ 0) (n : ℕ) (w : World) :
    e.next (e.stand n ⟨t, ⟨start⟩⟩ w) = e.stand (n + 1) ⟨t, ⟨start + 1⟩⟩ w := by
  have hp : e.perform .loopStart ⟨t, ⟨start⟩⟩ w = ⟨.ok (), ⟨t, ⟨start⟩⟩, w⟩ := by
    simp [perform, h0]
  exact next_stand h.opening hp n

theorem LoopAt.closing_left (h : e.LoopAt start stop) {t : Tape} (h0 : t.read = 0) (n : ℕ) (w : World) :
    e.next (e.stand n ⟨t, ⟨stop⟩⟩ w) = e.stand (n + 1) ⟨t, ⟨stop + 1⟩⟩ w := by
  have hp : e.perform .loopEnd ⟨t, ⟨stop⟩⟩ w = ⟨.ok (), ⟨t, ⟨stop⟩⟩, w⟩ := by
    simp [perform, h0]
  exact next_stand h.closing hp n

theorem LoopAt.closing_again (h : e.LoopAt start stop) {t : Tape} (h0 : t.read ≠ 0) (n : ℕ) (w : World) :
    e.next (e.stand n ⟨t, ⟨stop⟩⟩ w) = e.stand (n + 1) ⟨t, ⟨start + 1⟩⟩ w := by
  have hp : e.perform .loopEnd ⟨t, ⟨stop⟩⟩ w = ⟨.ok (), ⟨t, ⟨start⟩⟩, w⟩ := by
    simp [perform, jump, h0, h.backward, Cursor.jumpTo]
  exact next_stand h.closing hp n

/-- A round leads from behind the opening bracket to the same place, in one step more than the body. -/
theorem LoopAt.round (h : e.LoopAt start stop) {M : Meaning World} (hM : e.Realises (start + 1) stop M)
    {t t' : Tape} {w w' : World} {k : ℕ} (hk : M t w k (.completed t' w')) (h0 : t'.read ≠ 0) (n : ℕ) :
    e.next^[k + 1] (e.stand n ⟨t, ⟨start + 1⟩⟩ w) = e.stand (n + (k + 1)) ⟨t', ⟨start + 1⟩⟩ w' := by
  rw [Function.iterate_succ_apply', hM.completed hk, h.closing_again h0, Nat.add_assoc]

theorem LoopAt.realises_rounds (h : e.LoopAt start stop) {M : Meaning World}
    (hM : e.Realises (start + 1) stop M) : e.Realises (start + 1) (stop + 1) M.Rounds where
  completed {t w k t' w'} hr := by
    generalize hx : Finish.completed t' w' = r at hr
    induction hr with
    | last hk h0 =>
      cases hx
      intro n
      rw [Function.iterate_succ_apply', hM.completed hk, h.closing_left h0, Nat.add_assoc]
    | @again _ _ _ _ k k' _ hk h0 _ ih =>
      intro n
      rw [Nat.add_comm (k + 1), Function.iterate_add_apply, h.round hM hk h0, ih hx]
      congr 1
      omega
    | failed _ => cases hx
  failed {t w k fault t' w'} hr := by
    generalize hx : Finish.failed fault t' w' = r at hr
    induction hr with
    | last => cases hx
    | @again _ _ _ _ k k' _ hk h0 _ ih =>
      obtain ⟨q, hq, hrun⟩ := ih hx
      refine ⟨q, hq, fun n => ?_⟩
      rw [show k + 1 + k' + 1 = k' + 1 + (k + 1) by omega, Function.iterate_add_apply, h.round hM hk h0,
        hrun, Nat.add_assoc]
    | failed hk => cases hx; exact hM.failed hk
  progress {m n t w} ho := by
    induction m using Nat.strong_induction_on generalizing n t w with
    | _ m ih =>
      obtain ⟨k, r, hk⟩ := hM.progress ho
      cases r with
      | failed fault t' w' => exact ⟨_, _, .failed hk⟩
      | completed t' w' =>
        by_cases h0 : t'.read = 0
        · exact ⟨_, _, .last hk h0⟩
        -- the round ends inside the program, so the run is over only after more than its steps
        have hround := h.round hM hk h0 n
        have hin : start + 1 < e.program.size := by
          have := lt_size_of_get? h.closing
          have := h.lt
          omega
        have hm : k + 1 < m := by
          by_contra hle
          have := iterate_of_le ho (Nat.not_lt.1 hle)
          rw [hround, stand_running hin] at this
          rw [← this] at ho
          exact ho rfl
        obtain ⟨d, rfl⟩ := Nat.exists_eq_add_of_le' hm.le
        rw [Function.iterate_add_apply, hround] at ho
        obtain ⟨k', r, h'⟩ := ih d (by omega) ho
        exact ⟨_, _, .again hk h0 h'⟩

theorem LoopAt.realises_loop (h : e.LoopAt start stop) {M : Meaning World}
    (hM : e.Realises (start + 1) stop M) : e.Realises start (stop + 1) M.Loop where
  completed hl n := by
    cases hl with
    | left h0 => exact h.opening_left h0 n _
    | @entered _ _ k _ h0 hr =>
      rw [Nat.add_comm 1 k, Function.iterate_succ_apply, h.opening_entered h0,
        (h.realises_rounds hM).completed hr]
      congr 1
      omega
  failed hl := by
    cases hl with
    | @entered _ _ k _ h0 hr =>
      obtain ⟨q, hq, hrun⟩ := (h.realises_rounds hM).failed hr
      refine ⟨q, hq, fun n => ?_⟩
      rw [show 1 + k + 1 = k + 1 + 1 by omega, Function.iterate_succ_apply, h.opening_entered h0, hrun]
      congr 1
      omega
  progress {m n t w} ho := by
    by_cases h0 : t.read = 0
    · exact ⟨_, _, .left h0⟩
    have ho' : (e.next^[m] (e.stand (n + 1) ⟨t, ⟨start + 1⟩⟩ w)).Over := by
      rw [← h.opening_entered h0, ← Function.iterate_succ_apply, iterate_of_le ho m.le_succ]
      exact ho
    obtain ⟨k, r, hr⟩ := (h.realises_rounds hM).progress ho'
    exact ⟨_, _, .entered h0 hr⟩

end loop

theorem get?_of_toList {p : Program} {a b : List Instruction} {i : Instruction}
    (h : p.toList = a ++ i :: b) : p.get? a.length = some i := by
  rw [← Program.getElem?_toList, h]
  simp

/-- With the program's own table, the brackets around a derivable text are a loop. -/
theorem loopAt_of_toList {e : Engine World} (hb : JumpTable.build e.program = .ok e.jumps)
    {a b c : List Instruction} (hbal : Balanced b)
    (h : e.program.toList = a ++ .loopStart :: (b ++ .loopEnd :: c)) :
    e.LoopAt a.length (a.length + 1 + b.length) := by
  have henc := encloses_of_split hbal a c
  rw [← h] at henc
  exact ⟨henc.1, by rw [← Program.getElem?_toList]; exact henc.2.1,
    by rw [← Program.getElem?_toList]; exact henc.2.2.1,
    (JumpTable.target?_of_build hb _ _).2 (.inl henc), (JumpTable.target?_of_build hb _ _).2 (.inr henc)⟩

/-- With the program's own table, every block is realised at its place. -/
theorem realises_block {e : Engine World} (hb : JumpTable.build e.program = .ok e.jumps) (b : Block) :
    ∀ a c, e.program.toList = a ++ (b.text ++ c) →
      e.Realises a.length (a.length + b.text.length) (b.meaning e.hooks e.eof a.length) := by
  induction b with
  | done => exact fun a _ _ => realises_skip e a.length
  | op p rest ih =>
    intro a c h
    have hp := get?_of_toList h
    have hrest := ih (a ++ [p.instruction]) c (by rw [h]; simp [Block.text])
    rw [List.length_append, List.length_singleton] at hrest
    rw [Block.text, List.length_cons, Nat.add_comm rest.text.length, ← Nat.add_assoc]
    exact (realises_act hp).then hrest
  | loop body rest ihb ihr =>
    intro a c h
    simp only [Block.text, List.cons_append, List.append_assoc] at h
    have hloop := loopAt_of_toList hb body.balanced_text h
    have hbody := ihb (a ++ [.loopStart]) (.loopEnd :: (rest.text ++ c)) (by rw [h]; simp)
    have hrest := ihr (a ++ .loopStart :: (body.text ++ [.loopEnd])) c (by rw [h]; simp)
    have hlen : (a ++ Instruction.loopStart :: (body.text ++ [Instruction.loopEnd])).length =
        a.length + body.text.length + 2 := by
      simp only [List.length_append, List.length_cons, List.length_nil]
      omega
    have hend : a.length + (Block.loop body rest).text.length =
        a.length + body.text.length + 2 + rest.text.length := by
      simp only [Block.text, List.length_append, List.length_cons]
      omega
    rw [List.length_append, List.length_singleton] at hbody
    rw [hlen] at hrest
    rw [hend]
    refine Realises.then ?_ hrest
    have hstop : a.length + body.text.length + 2 = a.length + 1 + body.text.length + 1 := by omega
    rw [hstop]
    exact hloop.realises_loop hbody

/-- With its own table, a program is realised from end to end by the tree of which it is the text. -/
theorem realises_program {e : Engine World} (hb : JumpTable.build e.program = .ok e.jumps) {b : Block}
    (h : b.text = e.program.toList) : e.Realises 0 e.program.size (b.meaning e.hooks e.eof 0) := by
  have htext : e.program.toList = [] ++ (b.text ++ []) := by rw [h, List.append_nil, List.nil_append]
  have hreal := realises_block hb b [] [] htext
  rwa [List.length_nil, Nat.zero_add, h, Program.length_toList] at hreal

theorem Realises.run_completed {e : Engine World} {M : Meaning World} (h : e.Realises 0 e.program.size M)
    {t t' : Tape} {w w' : World} {k : ℕ} (hM : M t w k (.completed t' w')) :
    e.next^[k] (e.stand 0 { tape := t } w) = ⟨.halted, k, ⟨t', ⟨e.program.size⟩⟩, w'⟩ := by
  have := h.completed hM 0
  rwa [Nat.zero_add, stand_halted (s := ⟨t', ⟨e.program.size⟩⟩) le_rfl] at this

theorem Realises.run_failed {e : Engine World} {M : Meaning World} (h : e.Realises 0 e.program.size M)
    {t t' : Tape} {w w' : World} {k : ℕ} {fault : Fault} (hM : M t w k (.failed fault t' w')) :
    ∃ q, fault.AtHook q ∧
      e.next^[k + 1] (e.stand 0 { tape := t } w) = ⟨.stopped fault, k, ⟨t', ⟨q⟩⟩, w'⟩ := by
  obtain ⟨q, hq, hrun⟩ := h.failed hM
  refine ⟨q, hq, ?_⟩
  have := hrun 0
  rwa [Nat.zero_add] at this

/-- An engine that realises a meaning from end to end returns just the finishes of the meaning: there
is one place where the run gets to, and the meaning knows it. -/
theorem Realises.returns_iff {e : Engine World} {M : Meaning World} (h : e.Realises 0 e.program.size M)
    (t : Tape) (w : World) (r : Run World) :
    e.Returns {} { tape := t } w r ↔
      (∃ k t' w', M t w k (.completed t' w') ∧ r = ⟨.halted, k, ⟨t', ⟨e.program.size⟩⟩, w'⟩) ∨
      (∃ k fault t' w' q, M t w k (.failed fault t' w') ∧ fault.AtHook q ∧
        r = ⟨.stopped fault, k, ⟨t', ⟨q⟩⟩, w'⟩) := by
  rw [returns_free]
  constructor
  · rintro ⟨ho, n, rfl⟩
    obtain ⟨k, f, hf⟩ := h.progress ho
    cases f with
    | completed t' w' =>
      have hrun := h.run_completed hf
      refine .inl ⟨k, t', w', hf, ?_⟩
      rw [← hrun]
      exact iterate_unique ho (hrun ▸ over_halted _ _ _)
    | failed fault t' w' =>
      obtain ⟨q, hq, hrun⟩ := h.run_failed hf
      refine .inr ⟨k, fault, t', w', q, hf, hq, ?_⟩
      rw [← hrun]
      exact iterate_unique ho (hrun ▸ over_stopped _ _ _ _)
  · rintro (⟨k, t', w', hf, rfl⟩ | ⟨k, fault, t', w', q, hf, hq, rfl⟩)
    · exact ⟨over_halted _ _ _, k, h.run_completed hf⟩
    · obtain ⟨q', hq', hrun⟩ := h.run_failed hf
      rw [hq.unique hq']
      exact ⟨over_stopped _ _ _ _, k + 1, hrun⟩

end Engine

/-- Every program with a table is the text of exactly one tree, and from any tape and world its run
halts, or fails, after as many steps and with the same tape and world as the meaning of that tree
says. A fault comes from a hook at the instruction where the cursor stands. The hooks may be any, so
the world may hold the output and a list of all their calls. -/
theorem run_refines_tree (m : Machine) :
    ∃ b : Block, b.text = m.program.toList ∧ (∀ b' : Block, b'.text = m.program.toList → b' = b) ∧
      ∀ (World : Type) (hooks : Hooks World) (eof : EofPolicy) (t : Tape) (w : World) (k : ℕ) (s : State)
        (w' : World),
        ((m.engine hooks eof).Returns {} { tape := t } w ⟨.halted, k, s, w'⟩ ↔
          b.meaning hooks eof 0 t w k (.completed s.tape w') ∧ s.cursor.position = m.program.size) ∧
        ∀ fault, (m.engine hooks eof).Returns {} { tape := t } w ⟨.stopped fault, k, s, w'⟩ ↔
          b.meaning hooks eof 0 t w k (.failed fault s.tape w') ∧ fault.AtHook s.cursor.position := by
  obtain ⟨b, hb⟩ := Block.exists_text ((JumpTable.build_ok_iff m.program).1 ⟨m.jumps, m.built⟩)
  refine ⟨b, hb, fun b' hb' => Block.text_injective (hb'.trans hb.symm), ?_⟩
  intro World hooks eof t w k s w'
  have hreal : (m.engine hooks eof).Realises 0 m.program.size (b.meaning hooks eof 0) := by
    have := Engine.realises_block (e := m.engine hooks eof) m.built b [] []
      (by rw [hb, List.append_nil, List.nil_append]; rfl)
    rwa [List.length_nil, Nat.zero_add, hb, Program.length_toList] at this
  have hret := fun r => hreal.returns_iff t w r
  constructor
  · rw [hret]
    constructor
    · rintro (⟨k', t', w'', hf, he⟩ | ⟨k', fault, t', w'', q, -, -, he⟩)
      · cases he
        exact ⟨hf, rfl⟩
      · cases he
    · rintro ⟨hf, hs⟩
      refine .inl ⟨k, s.tape, w', hf, ?_⟩
      change _ = Run.mk _ _ ⟨s.tape, ⟨m.program.size⟩⟩ _
      rw [← hs]
  · intro fault
    rw [hret]
    constructor
    · rintro (⟨k', t', w'', -, he⟩ | ⟨k', fault, t', w'', q, hf, hq, he⟩)
      · cases he
      · cases he
        exact ⟨hf, hq⟩
    · rintro ⟨hf, hq⟩
      exact .inr ⟨k, fault, s.tape, w', s.cursor.position, hf, hq, rfl⟩

end TapeMachine
