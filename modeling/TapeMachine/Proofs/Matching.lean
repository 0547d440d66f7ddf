import TapeMachine.Proofs.Grammar
import TapeMachine.JumpTable

/-! The pass that builds a jump table. After each part of the program the stack holds the brackets
still open and the slots hold the partners within that part: `Scanned`, which every instruction
preserves. From it the table of a program exists just when the program is derivable, and then its
targets are the partners. -/

namespace TapeMachine

/-- The positions of the brackets still open after a text, innermost first. -/
inductive Opened : List ℕ → List Instruction → Prop
  | nil {l : List Instruction} (h : Balanced l) : Opened [] l
  | cons {ps : List ℕ} {l b : List Instruction} (h : Opened ps l) (hb : Balanced b) :
      Opened (l.length :: ps) (l ++ .loopStart :: b)

theorem Opened.append {ps : List ℕ} {l b : List Instruction} (h : Opened ps l) (hb : Balanced b) :
    Opened ps (l ++ b) := by
  cases h with
  | nil h => exact .nil (h.append hb)
  | cons h hc =>
    rw [List.append_assoc, List.cons_append]
    exact .cons h (hc.append hb)

theorem Opened.push {ps : List ℕ} {l : List Instruction} (h : Opened ps l) :
    Opened (l.length :: ps) (l ++ [.loopStart]) := .cons h .nil

theorem Opened.pop {p : ℕ} {ps : List ℕ} {l : List Instruction} (h : Opened (p :: ps) l) :
    Opened ps (l ++ [.loopEnd]) ∧ Encloses (l ++ [.loopEnd]) p l.length := by
  cases h with
  | @cons _ l b h hb =>
    constructor
    · simpa using h.append hb.wrap
    · have := encloses_of_split hb l []
      simpa [Nat.add_assoc, Nat.add_comm 1] using this

theorem Opened.depth_eq {ps : List ℕ} {l : List Instruction} (h : Opened ps l) :
    depth l = ps.length := by
  induction h with
  | nil h => simpa using h.depth_eq
  | cons _ hb ih =>
    simp only [depth_append, depth_start, hb.depth_eq, ih, List.length_cons, Nat.cast_add]
    omega

/-- Only a closing bracket gives the positions before it new partners. -/
theorem partners_snoc {l : List Instruction} {c : Instruction} (hc : c ≠ .loopEnd) (i j : ℕ) :
    Partners (l ++ [c]) i j ↔ Partners l i j := by
  have key : ∀ a b, Encloses (l ++ [c]) a b → a < l.length ∧ b < l.length := by
    intro a b h
    have hb : b ≠ l.length := by
      rintro rfl
      have := h.2.2.1
      simp at this
      exact hc this
    have := h.lt_length.2
    rw [List.length_append, List.length_singleton] at this
    have := h.1
    omega
  constructor
  · intro h
    have : i < l.length ∧ j < l.length := h.elim (key i j) (fun h => (key j i h).symm)
    exact (partners_append [c] this.1 this.2).1 h
  · intro h
    exact (partners_append [c] h.lt_length.1 h.lt_length.2).2 h

/-- The state of the pass after the text `l`, for a table of `n` slots. -/
structure Scanned (n : ℕ) (l : List Instruction) (m : JumpTable.Matching) : Prop where
  opened : Opened m.unclosed l
  size : m.slots.size = n
  slot : ∀ i j, m.slots[i]?.join = some j ↔ Partners l i j

theorem scanned_nil (n : ℕ) : Scanned n [] ⟨[], Array.replicate n none⟩ where
  opened := .nil .nil
  size := Array.size_replicate
  slot i j := by
    constructor
    · intro h
      rw [Array.getElem?_replicate] at h
      split at h <;> simp at h
    · intro h
      have := h.lt_length.1
      simp at this

/-- One closing bracket fills the two slots of its loop. -/
theorem slot_close {slots : Array (Option ℕ)} {l : List Instruction} {p : ℕ}
    (hslot : ∀ i j, slots[i]?.join = some j ↔ Partners l i j) (hl : l.length < slots.size)
    (hp : Encloses (l ++ [.loopEnd]) p l.length) (i j : ℕ) :
    ((slots.setIfInBounds p (some l.length)).setIfInBounds l.length (some p))[i]?.join = some j ↔
      Partners (l ++ [.loopEnd]) i j := by
  have hpl : p < l.length := hp.1
  rw [Array.getElem?_setIfInBounds, Array.size_setIfInBounds, Array.getElem?_setIfInBounds]
  by_cases h1 : l.length = i
  · subst h1
    rw [if_pos rfl, if_pos hl, Option.join_some, Option.some.injEq]
    constructor
    · rintro rfl
      exact .inr hp
    · exact fun h => (Partners.unique (.inr hp) h)
  by_cases h2 : p = i
  · subst h2
    rw [if_neg h1, if_pos rfl, if_pos (by omega), Option.join_some, Option.some.injEq]
    constructor
    · rintro rfl
      exact .inl hp
    · exact fun h => (Partners.unique (.inl hp) h)
  rw [if_neg h1, if_neg h2, hslot]
  constructor
  · intro h
    exact (partners_append _ h.lt_length.1 h.lt_length.2).2 h
  · intro h
    have hi := h.lt_length.1
    have hj := h.lt_length.2
    rw [List.length_append, List.length_singleton] at hi hj
    have hne : j ≠ l.length := by
      rintro rfl
      exact h2 (Partners.unique (.inr hp) h.symm)
    exact (partners_append _ (by omega) (by omega)).1 h

theorem Scanned.step {n : ℕ} {l : List Instruction} {m m' : JumpTable.Matching} {c : Instruction}
    (h : Scanned n l m) (hl : l.length < n) (hm : m.scan l.length c = .ok m') :
    Scanned n (l ++ [c]) m' := by
  obtain ⟨ho, hs, hslot⟩ := h
  by_cases hb : c.isBracket = true
  · cases c with
    | loopStart =>
      cases hm
      exact ⟨ho.push, hs, fun i j => (hslot i j).trans (partners_snoc (by decide) i j).symm⟩
    | loopEnd =>
      obtain ⟨unclosed, slots⟩ := m
      cases unclosed with
      | nil => simp [JumpTable.Matching.scan] at hm
      | cons p ps =>
        cases hm
        exact ⟨ho.pop.1, by simpa using hs, slot_close hslot (by simpa [hs] using hl) ho.pop.2⟩
    | _ => simp [Instruction.isBracket] at hb
  · rw [Bool.not_eq_true] at hb
    have hc : c ≠ .loopEnd := by rintro rfl; simp [Instruction.isBracket] at hb
    have : m' = m := by
      cases c <;> first | (cases hm; rfl) | simp [Instruction.isBracket] at hb
    subst this
    exact ⟨ho.append (balanced_single hb), hs, fun i j => (hslot i j).trans (partners_snoc hc i j).symm⟩

/-- The pass goes through a text unless it meets a closing bracket when none is open. -/
theorem Scanned.run {n : ℕ} (rest : List Instruction) :
    ∀ {l : List Instruction} {m : JumpTable.Matching}, Scanned n l m → l.length + rest.length ≤ n →
      (∃ m', m.scanAll l.length rest = .ok m' ∧ Scanned n (l ++ rest) m') ∨
      (∃ a b, rest = a ++ .loopEnd :: b ∧ Balanced (l ++ a) ∧
        m.scanAll l.length rest = .error (.unmatchedBracket (l.length + a.length) .closing)) := by
  induction rest with
  | nil =>
    intro l m h _
    exact .inl ⟨m, rfl, by simpa using h⟩
  | cons c rest ih =>
    intro l m h hn
    rw [List.length_cons] at hn
    cases hm : m.scan l.length c with
    | error fault =>
      obtain ⟨unclosed, slots⟩ := m
      have ho := h.opened
      cases c <;> first | (simp [JumpTable.Matching.scan] at hm; done) | skip
      cases unclosed with
      | cons p ps => simp [JumpTable.Matching.scan] at hm
      | nil =>
        cases hm
        cases ho with
        | nil ho => exact .inr ⟨[], rest, rfl, by simpa using ho, rfl⟩
    | ok next =>
      have hstep := h.step (by omega) hm
      have hlen : (l ++ [c]).length = l.length + 1 := by simp
      rcases ih hstep (by omega) with ⟨m', h1, h2⟩ | ⟨a, b, rfl, hb, h1⟩
      · refine .inl ⟨m', ?_, by simpa using h2⟩
        rw [JumpTable.Matching.scanAll, hm, ← hlen]
        exact h1
      · refine .inr ⟨c :: a, b, rfl, by simpa using hb, ?_⟩
        rw [JumpTable.Matching.scanAll, hm]
        simp only [← hlen, h1, List.length_cons]
        congr 2
        omega

namespace JumpTable

/-- What building a table comes to. -/
theorem build_cases (p : Program) :
    (∃ t, build p = .ok t ∧ Balanced p.toList ∧ t.slots.size = p.size ∧
      ∀ i j, t.target? i = some j ↔ Partners p.toList i j) ∨
    (∃ start ps, build p = .error (.unmatchedBracket start .opening) ∧ Opened (start :: ps) p.toList) ∨
    (∃ a b, p.toList = a ++ .loopEnd :: b ∧ Balanced a ∧
      build p = .error (.unmatchedBracket a.length .closing)) := by
  rcases (scanned_nil p.size).run p.toList (by simp) with ⟨m, hm, h⟩ | ⟨a, b, hp, hb, hm⟩
  · obtain ⟨unclosed, slots⟩ := m
    have ho := h.opened
    rw [List.nil_append] at h
    simp only [List.length_nil] at hm
    cases unclosed with
    | nil =>
      cases ho with
      | nil ho => exact .inl ⟨⟨slots⟩, by rw [build, hm], ho, h.size, h.slot⟩
    | cons start ps => exact .inr (.inl ⟨start, ps, by rw [build, hm], ho⟩)
  · simp only [List.length_nil, Nat.zero_add] at hm
    exact .inr (.inr ⟨a, b, hp, hb, by rw [build, hm]⟩)

/-- What is known of a program that has a table. -/
theorem of_build {p : Program} {t : JumpTable} (h : build p = .ok t) :
    Balanced p.toList ∧ t.slots.size = p.size ∧ ∀ i j, t.target? i = some j ↔ Partners p.toList i j := by
  rcases build_cases p with ⟨t', ht, hb, hs, htarget⟩ | ⟨_, _, he, _⟩ | ⟨_, _, _, _, he⟩
  · rw [ht, Except.ok.injEq] at h
    subst h
    exact ⟨hb, hs, htarget⟩
  · simp [he] at h
  · simp [he] at h

theorem build_ok_iff (p : Program) : (∃ t, build p = .ok t) ↔ Balanced p.toList := by
  constructor
  · rintro ⟨t, ht⟩
    exact (of_build ht).1
  · intro hb
    rcases build_cases p with ⟨t, ht, _⟩ | ⟨start, ps, _, ho⟩ | ⟨a, b, hp, ha, _⟩
    · exact ⟨t, ht⟩
    · have h1 := ho.depth_eq
      rw [hb.depth_eq, List.length_cons] at h1
      omega
    · have h1 := hb.depth_prefix (a ++ [.loopEnd]) b (by simpa using hp)
      rw [depth_append, ha.depth_eq] at h1
      simp at h1

/-- The targets of a program's own table are the partners of its brackets. -/
theorem target?_of_build {p : Program} {t : JumpTable} (h : build p = .ok t) (i j : ℕ) :
    t.target? i = some j ↔ Partners p.toList i j := (of_build h).2.2 i j

/-- The slots of a program's own table are filled just where it has a bracket. -/
theorem isSome_slots_of_build {p : Program} {t : JumpTable} (h : build p = .ok t) :
    t.slots.toList.map Option.isSome = p.toList.map Instruction.isBracket := by
  obtain ⟨hb, hsize, _⟩ := of_build h
  apply List.ext_getElem
  · simpa using hsize
  intro i h1 h2
  simp only [List.getElem_map, Array.getElem_toList]
  have hi : i < t.slots.size := by simpa using h1
  have htarget : t.target? i = t.slots[i] := by rw [target?, Array.getElem?_eq_getElem hi, Option.join_some]
  have hil : i < p.toList.length := by rwa [List.length_map] at h2
  have hp : p.toList[i]? = some p.toList[i] := List.getElem?_eq_getElem hil
  rw [Bool.eq_iff_iff, ← htarget, Option.isSome_iff_exists]
  simp only [target?_of_build h]
  constructor
  · rintro ⟨j, hj⟩
    obtain ⟨c, hc, hbr⟩ := hj.bracket
    rw [hp, Option.some.injEq] at hc
    exact hc ▸ hbr
  · exact hb.exists_partner i _ hp

theorem size_eq_bracketCount {p : Program} {t : JumpTable} (h : build p = .ok t) :
    t.size = p.bracketCount := by
  have := congrArg (List.countP (· = true)) (isSome_slots_of_build h)
  simpa [List.countP_map, Function.comp_def, size, Program.bracketCount] using this

theorem mem_pairs (t : JumpTable) (i j : ℕ) : (i, j) ∈ t.pairs ↔ t.target? i = some j := by
  simp only [pairs, List.mem_filterMap, Option.map_eq_some_iff, Prod.mk.injEq, Prod.exists,
    List.mem_zipIdx_iff_getElem?, Array.getElem?_toList, target?]
  constructor
  · rintro ⟨o, k, hk, _, rfl, rfl, rfl⟩
    rw [hk, Option.join_some]
  · intro h
    exact ⟨some j, i, Option.join_eq_some_iff.1 h, j, rfl, rfl, rfl⟩

theorem pairs_ascending (t : JumpTable) : t.pairs.Pairwise (fun a b => a.1 < b.1) := by
  rw [pairs, List.pairwise_filterMap]
  have hz : (t.slots.toList.zipIdx).Pairwise (fun a b => a.2 < b.2) := by
    have := List.pairwise_lt_range' (s := 0) (n := t.slots.toList.length)
    rw [← List.zipIdx_map_snd, List.pairwise_map] at this
    exact this
  refine hz.imp fun {a b} hab => ?_
  intro x hx y hy
  obtain ⟨_, _, rfl⟩ := Option.map_eq_some_iff.1 hx
  obtain ⟨_, _, rfl⟩ := Option.map_eq_some_iff.1 hy
  exact hab

/-- A program has a table just when it is derivable, and the table is the matching of its brackets:
symmetric, free of crossings, empty elsewhere, and listed pair by pair. -/
theorem build_matching (p : Program) :
    ((∃ t, build p = .ok t) ↔ Balanced p.toList) ∧
    ∀ t, build p = .ok t →
      (∀ i j, t.target? i = some j ↔ Partners p.toList i j) ∧
      (∀ i j, t.target? i = some j → t.target? j = some i ∧ i ≠ j) ∧
      (∀ i j i' j', t.target? i = some j → t.target? i' = some j' → i < i' → i' < j →
        i < j' ∧ j' < j) ∧
      (∀ i, t.target? i = none ↔ ∀ c, p.get? i = some c → c.isBracket = false) ∧
      t.size = p.bracketCount ∧
      t.pairs.Pairwise (fun a b => a.1 < b.1) ∧
      ∀ i j, (i, j) ∈ t.pairs ↔ t.target? i = some j := by
  refine ⟨build_ok_iff p, fun t ht => ?_⟩
  have hp := target?_of_build ht
  refine ⟨hp, ?_, ?_, ?_, size_eq_bracketCount ht, pairs_ascending t, mem_pairs t⟩
  · intro i j h
    have h := (hp i j).1 h
    exact ⟨(hp j i).2 h.symm, h.ne⟩
  · intro i j i' j' h h' hi hj
    have hij : Encloses p.toList i j := by
      rcases (hp i j).1 h with h | h
      · exact h
      · have := h.1
        omega
    exact Partners.inside hij ((hp i' j').1 h') hi hj
  · intro i
    constructor
    · intro hn c hc
      by_contra hb
      rw [← Program.getElem?_toList] at hc
      obtain ⟨j, hj⟩ := (of_build ht).1.exists_partner i c hc (Bool.not_eq_false _ ▸ hb)
      simp [(hp i j).2 hj] at hn
    · intro hno
      rw [Option.eq_none_iff_forall_ne_some]
      intro j hj
      obtain ⟨c, hc, hb⟩ := ((hp i j).1 hj).bracket
      rw [Program.getElem?_toList] at hc
      simp [hno c hc] at hb

/-- The inner loop of `[+[]]` takes positions 2 and 3, and the outer one 0 and 4. -/
theorem build_matching_nested :
    build (.ofList [.loopStart, .increment, .loopStart, .loopEnd, .loopEnd]) =
        .ok ⟨#[some 4, none, some 3, some 2, some 0]⟩ ∧
      Partners [.loopStart, .increment, .loopStart, .loopEnd, .loopEnd] 0 4 ∧
      ¬ Partners [.loopStart, .increment, .loopStart, .loopEnd, .loopEnd] 0 3 := by
  have hb : build (.ofList [.loopStart, .increment, .loopStart, .loopEnd, .loopEnd]) =
      .ok ⟨#[some 4, none, some 3, some 2, some 0]⟩ := rfl
  have hp := ((build_matching _).2 _ hb).1
  exact ⟨hb, (hp 0 4).1 rfl, fun h => by have := (hp 0 3).2 h; cases this⟩

end JumpTable

end TapeMachine
