import TapeMachine.Proofs.Matching

/-! Brackets without a partner. Which bracket is reported can be read off the depths of the prefixes of a
program, with nothing said of a stack: it is the first `]` behind which more brackets are closed than
opened, or, when there is none, the last `[` whose depth the text behind it never comes back to. -/

namespace TapeMachine

/-- The first position behind which more brackets are closed than opened. -/
def FirstSurplus (l : List Instruction) (i : ℕ) : Prop :=
  IsLeast {k | k < l.length ∧ depth (l.take (k + 1)) < 0} i

/-- A `[` behind which the depth stays greater than it is in front of it, up to the end. -/
def StaysOpen (l : List Instruction) (i : ℕ) : Prop :=
  l[i]? = some .loopStart ∧ ∀ k, i < k → k ≤ l.length → depth (l.take i) < depth (l.take k)

/-- No `]` is surplus, but there are brackets to close at the end, and this is the last `[` of them. -/
structure LastOpen (l : List Instruction) (i : ℕ) : Prop where
  nonneg : ∀ k ≤ l.length, 0 ≤ depth (l.take k)
  pos : 0 < depth l
  greatest : IsGreatest {k | StaysOpen l k} i

theorem Balanced.depth_take {l : List Instruction} (h : Balanced l) (k : ℕ) : 0 ≤ depth (l.take k) :=
  h.depth_prefix (l.take k) (l.drop k) (List.take_append_drop k l).symm

/-- Behind a `[` the depths are those of the text behind it, one level up. -/
theorem depth_take_start (l b : List Instruction) (d : ℕ) :
    depth ((l ++ .loopStart :: b).take (l.length + (1 + d))) = depth l + 1 + depth (b.take d) := by
  rw [List.take_length_add_append, Nat.add_comm 1 d, List.take_succ_cons, depth_append, depth_start]
  ring

/-! A text with brackets still open. -/

namespace Opened

theorem depth_take {ps : List ℕ} {l : List Instruction} (h : Opened ps l) (k : ℕ) :
    0 ≤ depth (l.take k) := by
  induction h generalizing k with
  | nil h => exact h.depth_take k
  | @cons ps l b h hb ih =>
    rcases Nat.lt_or_ge l.length k with hk | hk
    · obtain ⟨d, rfl⟩ : ∃ d, k = l.length + (1 + d) := ⟨k - (l.length + 1), by omega⟩
      rw [depth_take_start]
      have := hb.depth_take d
      have := h.depth_eq
      omega
    · rw [List.take_append_of_le_length hk]
      exact ih k

theorem staysOpen {p : ℕ} {ps : List ℕ} {l : List Instruction} (h : Opened (p :: ps) l) :
    StaysOpen l p := by
  cases h with
  | @cons _ l b h hb =>
    refine ⟨by simp, fun k hk _ => ?_⟩
    obtain ⟨d, rfl⟩ : ∃ d, k = l.length + (1 + d) := ⟨k - (l.length + 1), by omega⟩
    rw [depth_take_start, List.take_left]
    have := hb.depth_take d
    omega

/-- Behind the innermost open bracket every `[` has a partner, where the depth comes back. -/
theorem le_of_staysOpen {p k : ℕ} {ps : List ℕ} {l : List Instruction} (h : Opened (p :: ps) l)
    (hk : StaysOpen l k) : k ≤ p := by
  cases h with
  | @cons _ l b h hb =>
    by_contra hlt
    obtain ⟨d, rfl⟩ : ∃ d, k = l.length + 1 + d := ⟨k - (l.length + 1), by omega⟩
    obtain ⟨hstart, habove⟩ := hk
    have hd : b[d]? = some .loopStart := by
      rwa [show l.length + 1 + d = l.length + (d + 1) by omega, List.getElem?_append_right (by omega),
        Nat.add_sub_cancel_left, List.getElem?_cons_succ] at hstart
    obtain ⟨j, hj⟩ := hb.exists_partner d _ hd rfl
    rcases hj with hj | hj
    · have hin := hj.shift (l ++ [.loopStart]) []
      have e : (l ++ [.loopStart]) ++ (b ++ []) = l ++ .loopStart :: b := by simp
      rw [e, List.length_append, List.length_singleton] at hin
      have := habove (l.length + 1 + j + 1) (by have := hin.1; omega) hin.lt_length.2
      rw [hin.depth_end] at this
      exact lt_irrefl _ this
    · have := hj.2.2.1.symm.trans hd
      simp at this

theorem lastOpen {p : ℕ} {ps : List ℕ} {l : List Instruction} (h : Opened (p :: ps) l) :
    LastOpen l p where
  nonneg k _ := h.depth_take k
  pos := by
    rw [h.depth_eq, List.length_cons]
    omega
  greatest := ⟨h.staysOpen, fun _ hk => h.le_of_staysOpen hk⟩

end Opened

theorem Balanced.firstSurplus {a : List Instruction} (ha : Balanced a) (b : List Instruction) :
    FirstSurplus (a ++ .loopEnd :: b) a.length := by
  constructor
  · refine ⟨by simp, ?_⟩
    rw [List.take_length_add_append, List.take_succ_cons, List.take_zero, depth_append, ha.depth_eq]
    decide
  · rintro k ⟨-, hk⟩
    by_contra hlt
    rw [List.take_append_of_le_length (by omega)] at hk
    exact absurd (ha.depth_take (k + 1)) (by omega)

theorem FirstSurplus.exists_neg {l : List Instruction} {i : ℕ} (h : FirstSurplus l i) :
    ∃ k ≤ l.length, depth (l.take k) < 0 := ⟨i + 1, h.1.1, h.1.2⟩

theorem LastOpen.not_firstSurplus {l : List Instruction} {i j : ℕ} (h : LastOpen l i) :
    ¬ FirstSurplus l j := by
  intro hj
  obtain ⟨k, hk, hneg⟩ := hj.exists_neg
  exact absurd (h.nonneg k hk) (by omega)

theorem Balanced.not_firstSurplus {l : List Instruction} (h : Balanced l) (i : ℕ) : ¬ FirstSurplus l i := by
  intro hi
  obtain ⟨k, -, hneg⟩ := hi.exists_neg
  exact absurd (h.depth_take k) (by omega)

theorem Balanced.not_lastOpen {l : List Instruction} (h : Balanced l) (i : ℕ) : ¬ LastOpen l i := by
  intro hi
  have := hi.pos
  rw [h.depth_eq] at this
  exact lt_irrefl _ this

namespace JumpTable

/-- What building a table comes to, by the depths of the program. -/
theorem build_depths (p : Program) :
    (∃ t, build p = .ok t ∧ Balanced p.toList) ∨
    (∃ i, build p = .error (.unmatchedBracket i .opening) ∧ LastOpen p.toList i) ∨
    (∃ i, build p = .error (.unmatchedBracket i .closing) ∧ FirstSurplus p.toList i) := by
  rcases build_cases p with ⟨t, ht, hb, -⟩ | ⟨i, ps, he, ho⟩ | ⟨a, b, hp, ha, he⟩
  · exact .inl ⟨t, ht, hb⟩
  · exact .inr (.inl ⟨i, he, ho.lastOpen⟩)
  · refine .inr (.inr ⟨a.length, he, ?_⟩)
    rw [hp]
    exact ha.firstSurplus b

/-- A program has no table just when one of its brackets has no partner, and the depths say which one is
reported: the first surplus `]`, else the last `[` that stays open. -/
theorem build_error_iff_depth (p : Program) :
    (∀ i, build p = .error (.unmatchedBracket i .closing) ↔ FirstSurplus p.toList i) ∧
    (∀ i, build p = .error (.unmatchedBracket i .opening) ↔ LastOpen p.toList i) ∧
    ((∃ t, build p = .ok t) ↔
      (∀ i, ¬ FirstSurplus p.toList i) ∧ ∀ i, ¬ LastOpen p.toList i) := by
  rcases build_depths p with ⟨t, ht, hb⟩ | ⟨j, he, hj⟩ | ⟨j, he, hj⟩
  · refine ⟨fun i => ?_, fun i => ?_, ?_⟩
    · simp [ht, hb.not_firstSurplus i]
    · simp [ht, hb.not_lastOpen i]
    · exact ⟨fun _ => ⟨hb.not_firstSurplus, hb.not_lastOpen⟩, fun _ => ⟨t, ht⟩⟩
  · refine ⟨fun i => ?_, fun i => ?_, ?_⟩
    · simp [he, hj.not_firstSurplus]
    · simp only [he, Except.error.injEq, Fault.unmatchedBracket.injEq, and_true]
      exact ⟨fun h => h ▸ hj, fun h => hj.greatest.unique h.greatest⟩
    · simp only [he, reduceCtorEq, exists_false, false_iff]
      exact fun h => h.2 j hj
  · refine ⟨fun i => ?_, fun i => ?_, ?_⟩
    · simp only [he, Except.error.injEq, Fault.unmatchedBracket.injEq, and_true]
      exact ⟨fun h => h ▸ hj, fun h => hj.unique h⟩
    · simp only [he, Except.error.injEq, Fault.unmatchedBracket.injEq, reduceCtorEq, and_false, false_iff]
      exact fun h => h.not_firstSurplus hj
    · simp only [he, reduceCtorEq, exists_false, false_iff]
      exact fun h => h.1 j hj

/-- The loop that is closed does not hide the `[` in front of it. -/
example : build (.ofSource "+[[-]") = .error (.unmatchedBracket 1 .opening) := by decide

end JumpTable

end TapeMachine
