import TapeMachine.Instruction
import Mathlib.Tactic

/-! Well-bracketed texts. `Balanced` is the grammar `S ::= empty | c S | '[' S ']' S`, and `Partners`
says which two positions of a text hold the brackets of one loop. The depth of a text is what makes
the partner unique and keeps two loops from crossing: inside a loop it is greater than in front of
it, and behind the loop it is the same again. -/

namespace TapeMachine

/-- Derivable from `S ::= empty | c S | '[' S ']' S`, where `c` is no bracket. -/
inductive Balanced : List Instruction → Prop
  | nil : Balanced []
  | plain {i : Instruction} {l : List Instruction} (hi : i.isBracket = false) (h : Balanced l) :
      Balanced (i :: l)
  | loop {body rest : List Instruction} (hb : Balanced body) (hr : Balanced rest) :
      Balanced (.loopStart :: (body ++ .loopEnd :: rest))

theorem Balanced.append {a b : List Instruction} (ha : Balanced a) (hb : Balanced b) :
    Balanced (a ++ b) := by
  induction ha with
  | nil => exact hb
  | plain hi _ ih => exact .plain hi ih
  | @loop body rest hbody _ _ ih =>
    have := Balanced.loop hbody ih
    simpa using this

theorem balanced_single {i : Instruction} (hi : i.isBracket = false) : Balanced [i] := .plain hi .nil

theorem Balanced.wrap {b : List Instruction} (h : Balanced b) :
    Balanced (.loopStart :: (b ++ [.loopEnd])) := .loop h .nil

/-- The brackets that a text opens, less those that it closes. -/
def depth (l : List Instruction) : ℤ := (l.count .loopStart : ℤ) - l.count .loopEnd

@[simp] theorem depth_nil : depth [] = 0 := rfl

@[simp] theorem depth_append (a b : List Instruction) : depth (a ++ b) = depth a + depth b := by
  simp only [depth, List.count_append, Nat.cast_add]
  ring

theorem depth_single (i : Instruction) :
    depth [i] = if i = .loopStart then 1 else if i = .loopEnd then -1 else 0 := by
  cases i <;> rfl

theorem depth_cons (i : Instruction) (l : List Instruction) : depth (i :: l) = depth [i] + depth l := by
  rw [← List.singleton_append, depth_append]

@[simp] theorem depth_start (l : List Instruction) : depth (.loopStart :: l) = 1 + depth l := by
  rw [depth_cons, depth_single, if_pos rfl]

@[simp] theorem depth_end (l : List Instruction) : depth (.loopEnd :: l) = -1 + depth l := by
  rw [depth_cons, depth_single, if_neg (by decide), if_pos rfl]

theorem depth_plain {i : Instruction} (hi : i.isBracket = false) (l : List Instruction) :
    depth (i :: l) = depth l := by
  have h1 : i ≠ .loopStart := by rintro rfl; simp [Instruction.isBracket] at hi
  have h2 : i ≠ .loopEnd := by rintro rfl; simp [Instruction.isBracket] at hi
  rw [depth_cons, depth_single, if_neg h1, if_neg h2, zero_add]

theorem Balanced.depth_eq {l : List Instruction} (h : Balanced l) : depth l = 0 := by
  induction h with
  | nil => rfl
  | plain hi _ ih => rw [depth_plain hi, ih]
  | loop _ _ ihb ihr => simp [ihb, ihr]

/-- A derivable text never closes more brackets than it has opened. -/
theorem Balanced.depth_prefix {l : List Instruction} (h : Balanced l) :
    ∀ u v, l = u ++ v → 0 ≤ depth u := by
  induction h with
  | nil =>
    intro u v huv
    obtain ⟨rfl, -⟩ := List.append_eq_nil_iff.1 huv.symm
    simp
  | plain hi _ ih =>
    intro u v huv
    rcases List.cons_eq_append_iff.1 huv with ⟨rfl, -⟩ | ⟨u', rfl, hu⟩
    · simp
    · rw [depth_plain hi]
      exact ih u' v hu
  | @loop body rest hb _ ihb ihr =>
    intro u v huv
    rcases List.cons_eq_append_iff.1 huv with ⟨rfl, -⟩ | ⟨u', rfl, hu⟩
    · simp
    rcases List.append_eq_append_iff.1 hu with ⟨w, rfl, hw⟩ | ⟨w, hw, -⟩
    · -- the cut lies behind the body
      rcases List.cons_eq_append_iff.1 hw with ⟨rfl, -⟩ | ⟨w', rfl, hw'⟩
      · simp [hb.depth_eq]
      · have := ihr w' v hw'
        simpa [hb.depth_eq] using this
    · have := ihb u' w hw
      rw [depth_start]
      omega

/-- A derivable text in front of a closing bracket ends at the first bracket that it does not open. -/
theorem Balanced.cut {a b c d : List Instruction} (ha : Balanced a) (hb : Balanced b)
    (h : a ++ .loopEnd :: c = b ++ .loopEnd :: d) : a = b ∧ c = d := by
  have key : ∀ x y, Balanced (x ++ .loopEnd :: y) → ¬ Balanced x := by
    intro x y hxy hx
    have := hxy.depth_prefix (x ++ [.loopEnd]) y (by simp)
    rw [depth_append, hx.depth_eq] at this
    simp at this
  rcases List.append_eq_append_iff.1 h with ⟨w, rfl, hw⟩ | ⟨w, rfl, hw⟩
  · rcases List.cons_eq_append_iff.1 hw with ⟨rfl, hcd⟩ | ⟨w', rfl, -⟩
    · exact ⟨(List.append_nil a).symm, (List.cons.inj hcd).2.symm⟩
    · exact absurd ha (key a w' hb)
  · rcases List.cons_eq_append_iff.1 hw with ⟨rfl, hcd⟩ | ⟨w', rfl, -⟩
    · exact ⟨List.append_nil b, (List.cons.inj hcd).2⟩
    · exact absurd hb (key b w' ha)

/-- A `[` at `i` and a `]` at `j` with a derivable text between them. -/
def Encloses (l : List Instruction) (i j : ℕ) : Prop :=
  i < j ∧ l[i]? = some .loopStart ∧ l[j]? = some .loopEnd ∧ Balanced ((l.take j).drop (i + 1))

/-- The smaller of the two positions holds a `[`, the larger one a `]`, and the text strictly
between them is derivable. -/
def Partners (l : List Instruction) (i j : ℕ) : Prop := Encloses l i j ∨ Encloses l j i

theorem Encloses.split {l : List Instruction} {i j : ℕ} (h : Encloses l i j) :
    ∃ a b c, l = a ++ .loopStart :: (b ++ .loopEnd :: c) ∧ Balanced b ∧ i = a.length ∧
      j = a.length + 1 + b.length := by
  obtain ⟨hij, hi, hj, hb⟩ := h
  obtain ⟨hil, hi⟩ := List.getElem?_eq_some_iff.1 hi
  obtain ⟨hjl, hj⟩ := List.getElem?_eq_some_iff.1 hj
  have hb' : (l.drop (i + 1)).take (j - (i + 1)) = (l.take j).drop (i + 1) := by
    rw [List.drop_take]
  have e : l.drop (i + 1) = (l.take j).drop (i + 1) ++ .loopEnd :: l.drop (j + 1) := by
    rw [← hb', ← hj, ← List.drop_eq_getElem_cons hjl]
    conv_lhs => rw [← List.take_append_drop (j - (i + 1)) (l.drop (i + 1))]
    rw [List.drop_drop, show i + 1 + (j - (i + 1)) = j by omega]
  refine ⟨l.take i, (l.take j).drop (i + 1), l.drop (j + 1), ?_, hb, ?_, ?_⟩
  · rw [← e, ← hi, ← List.drop_eq_getElem_cons hil, List.take_append_drop]
  · rw [List.length_take]; omega
  · rw [List.length_take, List.length_drop, List.length_take]; omega

theorem encloses_of_split {b : List Instruction} (hb : Balanced b) (a c : List Instruction) :
    Encloses (a ++ .loopStart :: (b ++ .loopEnd :: c)) a.length (a.length + 1 + b.length) := by
  have e : a ++ .loopStart :: (b ++ .loopEnd :: c) = (a ++ .loopStart :: b) ++ .loopEnd :: c := by simp
  have hl : (a ++ .loopStart :: b).length = a.length + 1 + b.length := by simp; omega
  refine ⟨by omega, by simp, ?_, ?_⟩
  · rw [e, ← hl]; simp
  · rw [e, ← hl, List.take_left]
    have hd : (a ++ .loopStart :: b).drop (a.length + 1) = b := by
      rw [List.drop_append]
      simp
    rwa [hd]

theorem Encloses.lt_length {l : List Instruction} {i j : ℕ} (h : Encloses l i j) :
    i < l.length ∧ j < l.length := by
  have hj := (List.getElem?_eq_some_iff.1 h.2.2.1).1
  have := h.1
  omega

theorem encloses_append {l : List Instruction} (r : List Instruction) {i j : ℕ} (hj : j < l.length) :
    Encloses (l ++ r) i j ↔ Encloses l i j := by
  unfold Encloses
  rw [List.take_append_of_le_length (by omega), List.getElem?_append_left hj]
  constructor <;> rintro ⟨h1, h2, h3, h4⟩ <;> refine ⟨h1, ?_, h3, h4⟩
  · rwa [List.getElem?_append_left (by omega)] at h2
  · rwa [List.getElem?_append_left (by omega)]

theorem Encloses.shift {l : List Instruction} {i j : ℕ} (h : Encloses l i j) (x y : List Instruction) :
    Encloses (x ++ (l ++ y)) (x.length + i) (x.length + j) := by
  obtain ⟨a, b, c, rfl, hb, rfl, rfl⟩ := h.split
  have := encloses_of_split hb (x ++ a) (c ++ y)
  simpa [Nat.add_assoc] using this

/-- Behind a loop the depth is what it was in front of it. -/
theorem Encloses.depth_end {l : List Instruction} {i j : ℕ} (h : Encloses l i j) :
    depth (l.take (j + 1)) = depth (l.take i) := by
  obtain ⟨a, b, c, rfl, hb, rfl, rfl⟩ := h.split
  have e : a ++ .loopStart :: (b ++ .loopEnd :: c) =
      (a ++ Instruction.loopStart :: (b ++ [Instruction.loopEnd])) ++ c := by simp
  have hl : a.length + 1 + b.length + 1 =
      (a ++ Instruction.loopStart :: (b ++ [Instruction.loopEnd])).length := by simp; omega
  rw [List.take_left, e, hl, List.take_left]
  simp [hb.depth_eq]

/-- Inside a loop the depth is greater than in front of it. -/
theorem Encloses.depth_inside {l : List Instruction} {i j k : ℕ} (h : Encloses l i j) (hik : i < k)
    (hkj : k ≤ j) : depth (l.take i) < depth (l.take k) := by
  obtain ⟨a, b, c, rfl, hb, rfl, rfl⟩ := h.split
  obtain ⟨d, rfl⟩ : ∃ d, k = a.length + (1 + d) := ⟨k - (a.length + 1), by omega⟩
  have ht : (Instruction.loopStart :: (b ++ .loopEnd :: c)).take (1 + d) = .loopStart :: b.take d := by
    rw [Nat.add_comm, List.take_succ_cons, List.take_append_of_le_length (by omega)]
  rw [List.take_left, List.take_length_add_append, ht, depth_append, depth_start]
  have := hb.depth_prefix (b.take d) (b.drop d) (List.take_append_drop d b).symm
  omega

theorem Encloses.right_unique {l : List Instruction} {i j j' : ℕ} (h : Encloses l i j)
    (h' : Encloses l i j') : j = j' := by
  by_contra hne
  wlog hlt : j < j' generalizing j j'
  · exact this h' h (Ne.symm hne) (by omega)
  have := h'.depth_inside (k := j + 1) (by have := h.1; omega) (by omega)
  rw [h.depth_end] at this
  omega

theorem Encloses.left_unique {l : List Instruction} {i i' j : ℕ} (h : Encloses l i j)
    (h' : Encloses l i' j) : i = i' := by
  by_contra hne
  wlog hlt : i < i' generalizing i i'
  · exact this h' h (Ne.symm hne) (by omega)
  have := h.depth_inside hlt (by have := h'.1; omega)
  rw [← h.depth_end, h'.depth_end] at this
  omega

/-- Two loops do not cross. -/
theorem Encloses.nested {l : List Instruction} {i j i' j' : ℕ} (h : Encloses l i j)
    (h' : Encloses l i' j') (hi : i < i') (hj : i' < j) : j' < j := by
  by_contra hge
  have hne : j ≠ j' := fun e => by
    subst e
    have := h.left_unique h'
    omega
  have h1 := h.depth_inside hi hj.le
  have h2 := h'.depth_inside (k := j + 1) (by omega) (by omega)
  rw [h.depth_end] at h2
  omega

theorem Partners.symm {l : List Instruction} {i j : ℕ} (h : Partners l i j) : Partners l j i := Or.symm h

theorem Partners.ne {l : List Instruction} {i j : ℕ} (h : Partners l i j) : i ≠ j := by
  rcases h with h | h
  · exact h.1.ne
  · exact h.1.ne'

theorem Partners.lt_length {l : List Instruction} {i j : ℕ} (h : Partners l i j) :
    i < l.length ∧ j < l.length := by
  rcases h with h | h
  · exact h.lt_length
  · exact h.lt_length.symm

theorem Partners.bracket {l : List Instruction} {i j : ℕ} (h : Partners l i j) :
    ∃ c, l[i]? = some c ∧ c.isBracket = true := by
  rcases h with h | h
  · exact ⟨_, h.2.1, rfl⟩
  · exact ⟨_, h.2.2.1, rfl⟩

theorem Partners.unique {l : List Instruction} {i j j' : ℕ} (h : Partners l i j)
    (h' : Partners l i j') : j = j' := by
  rcases h with h | h <;> rcases h' with h' | h'
  · exact h.right_unique h'
  · have := h.2.1.symm.trans h'.2.2.1
    simp at this
  · have := h.2.2.1.symm.trans h'.2.1
    simp at this
  · exact h.left_unique h'

/-- A bracket inside a loop has its partner inside, too. -/
theorem Partners.inside {l : List Instruction} {i j i' j' : ℕ} (h : Encloses l i j)
    (h' : Partners l i' j') (hi : i < i') (hj : i' < j) : i < j' ∧ j' < j := by
  rcases h' with h' | h'
  · exact ⟨hi.trans h'.1, h.nested h' hi hj⟩
  · refine ⟨?_, h'.1.trans hj⟩
    by_contra hge
    rcases Nat.lt_or_eq_of_le (Nat.not_lt.1 hge) with hlt | rfl
    · have := h'.nested h hlt hi
      omega
    · have := h.right_unique h'
      omega

theorem partners_append {l : List Instruction} (r : List Instruction) {i j : ℕ} (hi : i < l.length)
    (hj : j < l.length) : Partners (l ++ r) i j ↔ Partners l i j := by
  unfold Partners
  rw [encloses_append r hi, encloses_append r hj]

theorem Partners.shift {l : List Instruction} {i j : ℕ} (h : Partners l i j) (x y : List Instruction) :
    Partners (x ++ (l ++ y)) (x.length + i) (x.length + j) :=
  h.imp (fun h => h.shift x y) (fun h => h.shift x y)

/-- In a derivable text every bracket has a partner. -/
theorem Balanced.exists_partner {l : List Instruction} (h : Balanced l) :
    ∀ i c, l[i]? = some c → c.isBracket = true → ∃ j, Partners l i j := by
  induction h with
  | nil => intro i c hc; simp at hc
  | @plain p l hp _ ih =>
    intro i c hc hbr
    cases i with
    | zero => simp at hc; subst hc; simp [hp] at hbr
    | succ i =>
      obtain ⟨j, hj⟩ := ih i c (by simpa using hc) hbr
      exact ⟨_, by simpa [Nat.add_comm] using hj.shift [p] []⟩
  | @loop body rest hb _ ihb ihr =>
    intro i c hc hbr
    have whole : Encloses (.loopStart :: (body ++ .loopEnd :: rest)) 0 (1 + body.length) := by
      simpa using encloses_of_split hb [] rest
    rcases Nat.lt_trichotomy i (1 + body.length) with hi | rfl | hi
    · cases i with
      | zero => exact ⟨_, .inl whole⟩
      | succ i =>
        rw [List.getElem?_cons_succ, List.getElem?_append_left (by omega)] at hc
        obtain ⟨j, hj⟩ := ihb i c hc hbr
        exact ⟨_, by simpa [Nat.add_comm] using hj.shift [.loopStart] (.loopEnd :: rest)⟩
    · exact ⟨_, .inr whole⟩
    · obtain ⟨d, rfl⟩ : ∃ d, i = body.length + 2 + d := ⟨i - (body.length + 2), by omega⟩
      have hd : rest[d]? = some c := by
        rw [← hc, show body.length + 2 + d = (body.length + (1 + d)) + 1 by omega,
          List.getElem?_cons_succ, List.getElem?_append_right (by omega), Nat.add_sub_cancel_left,
          Nat.add_comm 1 d, List.getElem?_cons_succ]
      obtain ⟨j, hj⟩ := ihr d c hd hbr
      have := hj.shift (.loopStart :: (body ++ [.loopEnd])) []
      simp only [List.length_cons, List.length_append, List.length_nil, List.append_nil,
        List.cons_append, List.append_assoc, List.nil_append, zero_add] at this
      exact ⟨_, this⟩

end TapeMachine
