import TapeMachine.Program
import Mathlib.Tactic

/-! Source texts. The program of a text, the symbols that it is written in and the offsets of its
instructions are three views of one filtering: what is no symbol is left out, and everything else
stands where it stood. Offsets count characters, so those behind another text are moved on by its
length. -/

namespace TapeMachine

namespace Instruction

/-- The characters that write an instruction. -/
def symbols : List Char := ['>', '<', '+', '-', '.', ',', '[', ']']

theorem symbol_mem (i : Instruction) : i.symbol ∈ symbols := by
  cases i <;> decide

/-- A character is a comment just when it is none of the symbols. -/
theorem mem_symbols_iff (c : Char) : c ∈ symbols ↔ (ofChar? c).isSome = true := by
  constructor
  · intro h
    simp only [symbols, List.mem_cons, List.not_mem_nil, or_false] at h
    rcases h with rfl | rfl | rfl | rfl | rfl | rfl | rfl | rfl <;> rfl
  · intro h
    obtain ⟨i, hi⟩ := Option.isSome_iff_exists.1 h
    rw [← symbol_of_ofChar? hi]
    exact i.symbol_mem

theorem ofChar?_eq_none {c : Char} (h : c ∉ symbols) : ofChar? c = none := by
  rwa [mem_symbols_iff, Bool.not_eq_true, Option.isSome_eq_false_iff, Option.isNone_iff_eq_none] at h

end Instruction

namespace Program

theorem toList_ofChars (cs : List Char) : (ofChars cs).toList = cs.filterMap Instruction.ofChar? := rfl

theorem eq_of_toList {p q : Program} (h : p.toList = q.toList) : p = q := by
  cases p
  cases q
  simpa [toList] using h

theorem toList_render (p : Program) : p.render.toList = p.toList.map Instruction.symbol := by
  rw [render, String.toList_ofList]

/-- What is read of a text, written again, is the text without its comments. -/
theorem map_symbol_ofChars (cs : List Char) :
    (ofChars cs).toList.map Instruction.symbol = cs.filter (· ∈ Instruction.symbols) := by
  rw [toList_ofChars]
  induction cs with
  | nil => rfl
  | cons c cs ih =>
    by_cases hc : c ∈ Instruction.symbols
    · obtain ⟨i, hi⟩ := Option.isSome_iff_exists.1 ((Instruction.mem_symbols_iff c).1 hc)
      simp [hi, hc, ih, Instruction.symbol_of_ofChar? hi]
    · simp [Instruction.ofChar?_eq_none hc, hc, ih]

/-- Reading the symbols of a program gives the program back. -/
theorem ofSource_render (p : Program) : ofSource p.render = p := by
  apply eq_of_toList
  rw [ofSource, toList_ofChars, toList_render, List.filterMap_map]
  simp

/-! Offsets by the first character of a text. -/

@[simp] theorem offsetsOfChars_nil : offsetsOfChars [] = [] := rfl

/-- Behind `n` characters every offset is greater by `n`. -/
theorem offsets_zipIdx (cs : List Char) (n : ℕ) :
    ((cs.zipIdx n).filter fun c => (Instruction.ofChar? c.1).isSome).map (fun c => c.2) =
      (offsetsOfChars cs).map (· + n) := by
  have hn : cs.zipIdx n = cs.zipIdx.map (Prod.map id (· + n)) := by
    rw [List.map_snd_add_zipIdx_eq_zipIdx, Nat.add_zero]
  rw [hn, List.filter_map, List.map_map, offsetsOfChars, List.map_map]
  rfl

theorem offsetsOfChars_append (s t : List Char) :
    offsetsOfChars (s ++ t) = offsetsOfChars s ++ (offsetsOfChars t).map (· + s.length) := by
  rw [← offsets_zipIdx, offsetsOfChars, List.zipIdx_append, Nat.zero_add, List.filter_append,
    List.map_append]
  rfl

theorem offsetsOfChars_cons (c : Char) (cs : List Char) : offsetsOfChars (c :: cs) =
    (if c ∈ Instruction.symbols then [0] else []) ++ (offsetsOfChars cs).map (· + 1) := by
  rw [← List.singleton_append, offsetsOfChars_append, List.length_singleton]
  congr 1
  by_cases hc : c ∈ Instruction.symbols
  · simp [offsetsOfChars, hc, (Instruction.mem_symbols_iff c).1 hc]
  · simp [offsetsOfChars, hc, Instruction.ofChar?_eq_none hc]

theorem mem_offsetsOfChars (cs : List Char) (k : ℕ) :
    k ∈ offsetsOfChars cs ↔ ∃ c, cs[k]? = some c ∧ c ∈ Instruction.symbols := by
  simp [offsetsOfChars, List.mem_zipIdx_iff_getElem?, Instruction.mem_symbols_iff]

theorem offsetsOfChars_ascending (cs : List Char) : (offsetsOfChars cs).Pairwise (· < ·) := by
  induction cs with
  | nil => exact .nil
  | cons c cs ih =>
    have htail : ((offsetsOfChars cs).map (· + 1)).Pairwise (· < ·) := by
      simpa [List.pairwise_map] using ih
    rw [offsetsOfChars_cons]
    split_ifs
    · simpa using htail
    · exact htail

/-- The characters at the offsets are the instructions of the text, one by one. -/
theorem map_offsetsOfChars (cs : List Char) :
    (offsetsOfChars cs).map (fun k => cs[k]?.bind Instruction.ofChar?) =
      (ofChars cs).toList.map some := by
  induction cs with
  | nil => rfl
  | cons c cs ih =>
    rw [offsetsOfChars_cons, List.map_append, List.map_map]
    have htail : (fun k => (c :: cs)[k]?.bind Instruction.ofChar?) ∘ (· + 1) =
        fun k => cs[k]?.bind Instruction.ofChar? := rfl
    rw [htail, ih, toList_ofChars, toList_ofChars]
    by_cases hc : c ∈ Instruction.symbols
    · obtain ⟨i, hi⟩ := Option.isSome_iff_exists.1 ((Instruction.mem_symbols_iff c).1 hc)
      simp [hc, hi]
    · simp [hc, Instruction.ofChar?_eq_none hc]

theorem length_offsets (s : String) : (offsets s).length = (ofSource s).size := by
  have h := congrArg List.length (map_offsetsOfChars s.toList)
  rwa [List.length_map, List.length_map, length_toList] at h

/-- The instruction at a position is what the character at its offset is read as. -/
theorem get?_eq_offsets (s : String) (i : ℕ) :
    (ofSource s).get? i = (offsets s)[i]?.bind fun k => s.toList[k]?.bind Instruction.ofChar? := by
  have h := congrArg (fun l => l[i]?) (map_offsetsOfChars s.toList)
  rw [List.getElem?_map, List.getElem?_map, getElem?_toList] at h
  rw [offsets, ofSource]
  cases hk : (offsetsOfChars s.toList)[i]? <;> cases hi : (ofChars s.toList).get? i <;> simp_all

/-- The offsets of a text that is nothing but symbols are all its positions. -/
theorem offsets_render (p : Program) : offsets p.render = List.range p.size := by
  rw [offsets, toList_render, ← length_toList]
  generalize p.toList = l
  induction l with
  | nil => rfl
  | cons i l ih =>
    rw [List.map_cons, offsetsOfChars_cons, if_pos i.symbol_mem, ih, List.length_cons,
      List.range_succ_eq_map]
    rfl

/-- The program of a text, its symbols and its offsets are views of one filtering. Written again, the
program is the text without its comments. The offsets ascend, there is one for each instruction, the
character there is read as this instruction, and only comments stand elsewhere. All this goes part by
part through a text that is put together of two. A program is the program of its own symbols, where
every position is its own offset. -/
theorem views_of_source :
    (∀ s : String,
      (ofSource s).render.toList = s.toList.filter (· ∈ Instruction.symbols) ∧
      (offsets s).Pairwise (· < ·) ∧
      (offsets s).length = (ofSource s).size ∧
      (∀ i, (ofSource s).get? i = (offsets s)[i]?.bind fun k => s.toList[k]?.bind Instruction.ofChar?) ∧
      ∀ k, k ∈ offsets s ↔ ∃ c, s.toList[k]? = some c ∧ c ∈ Instruction.symbols) ∧
    (∀ s t : String,
      (ofSource (s ++ t)).toList = (ofSource s).toList ++ (ofSource t).toList ∧
      offsets (s ++ t) = offsets s ++ (offsets t).map (· + s.length)) ∧
    ∀ p : Program, ofSource p.render = p ∧ offsets p.render = List.range p.size := by
  refine ⟨fun s => ⟨?_, offsetsOfChars_ascending _, length_offsets s, get?_eq_offsets s,
    mem_offsetsOfChars _⟩, fun s t => ⟨?_, ?_⟩, fun p => ⟨ofSource_render p, offsets_render p⟩⟩
  · rw [toList_render]
    exact map_symbol_ofChars s.toList
  · rw [ofSource, String.toList_append, ofChars_append]
    rfl
  · rw [offsets, String.toList_append, offsetsOfChars_append, String.length_toList]
    rfl

end Program

end TapeMachine
