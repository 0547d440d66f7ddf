import TapeMachine.Proofs.Caret

/-! Excerpts by characters. The part that an excerpt shows is cut out of the text by positions in bytes,
but it can be told from the characters alone: it is made of those whose index is as near to the offset as
the margin allows. The positions stand between characters for every text and every offset, also far beyond
the end, so there always is something to be cut out. -/

namespace TapeMachine

/-- The elements with an index in a range are what is left of the first ones without the first of all. -/
theorem map_fst_filter_zipIdx {α : Type} (l : List α) (a b k : ℕ) :
    ((l.zipIdx k).filter fun x => a ≤ x.2 ∧ x.2 < b).map Prod.fst = (l.take (b - k)).drop (a - k) := by
  induction l generalizing k with
  | nil => simp
  | cons x l ih =>
    rw [List.zipIdx_cons, List.filter_cons]
    rcases Nat.lt_or_ge k b with hb | hb
    · obtain ⟨n, hn⟩ : ∃ n, b - k = n + 1 := ⟨b - k - 1, by omega⟩
      have hn' : b - (k + 1) = n := by omega
      rcases Nat.lt_or_ge k a with ha | ha
      · obtain ⟨m, hm⟩ : ∃ m, a - k = m + 1 := ⟨a - k - 1, by omega⟩
        have hm' : a - (k + 1) = m := by omega
        rw [if_neg (by simp; omega), ih, hn, hm, hn', hm', List.take_succ_cons, List.drop_succ_cons]
      · have h0 : a - k = 0 := by omega
        have h0' : a - (k + 1) = 0 := by omega
        rw [if_pos (by simp; omega), List.map_cons, ih, hn, hn', h0, h0', List.take_succ_cons,
          List.drop_zero, List.drop_zero]
    · have h0 : b - k = 0 := by omega
      have h0' : b - (k + 1) = 0 := by omega
      rw [if_neg (by simp; omega), ih, h0, h0']
      simp

namespace Diagnostic

/-- The characters with an index at most 32 away from an offset, every blank as a space. -/
def nearby (cs : List Char) (offset : ℕ) : List Char :=
  (cs.zipIdx.filter fun c => offset ≤ c.2 + 32 ∧ c.2 ≤ offset + 32).map
    fun c => if Text.isBlank c.1 then ' ' else c.1

theorem excerptChars_eq_nearby (cs : List Char) (offset : ℕ) : excerptChars cs offset = nearby cs offset := by
  have hpart := map_fst_filter_zipIdx cs (offset - margin) (offset + margin + 1) 0
  have hnear : ∀ c ∈ cs.zipIdx, decide (offset - margin ≤ c.2 ∧ c.2 < offset + margin + 1) =
      decide (offset ≤ c.2 + 32 ∧ c.2 ≤ offset + 32) := by
    intro c _
    have hmargin : margin = 32 := rfl
    exact decide_eq_decide.2 (by omega)
  rw [List.filter_congr hnear] at hpart
  rw [excerptChars, ← Nat.sub_zero (offset + margin + 1), ← Nat.sub_zero (offset - margin), ← hpart,
    List.map_map]
  rfl

theorem nearby_of_length_le {cs : List Char} {offset : ℕ} (h : cs.length ≤ offset - 32) :
    nearby cs offset = [] := by
  rw [← excerptChars_eq_nearby, excerptChars, List.drop_eq_nil_of_le, List.map_nil]
  have hmargin : margin = 32 := rfl
  rw [List.length_take]
  omega

theorem toList_excerpt_eq_nearby (source : String) (offset : ℕ) :
    (excerpt source offset).toList = [' ', ' '] ++ nearby source.toList offset ++ ['\n', ' ', ' '] ++
      List.replicate (min offset 32) ' ' ++ ['^', '\n'] := by
  rw [toList_excerpt, excerptChars_eq_nearby]
  simp [margin]

/-- An excerpt shows the characters that are at most 32 away from the offset, of which there are none far
beyond the text, and has a caret below the offset; it has no line breaks but its own two. The positions in
bytes that the part is cut out at stand between characters, in the right order, so the cut succeeds. -/
theorem excerpt_shows_nearby (source : String) (offset : ℕ) :
    (let start := Text.byteIndex source (offset - 32)
      let stop := Text.byteIndex source (min (offset + 32 + 1) source.length)
      String.Pos.Raw.IsValid source ⟨start⟩ ∧ String.Pos.Raw.IsValid source ⟨stop⟩ ∧ start ≤ stop ∧
        ∃ part, Text.slice? source start stop = some part ∧ stretch? source offset = some part ∧
          part.toList.map shown = nearby source.toList offset) ∧
    (source.length ≤ offset - 32 → nearby source.toList offset = []) ∧
    (excerpt source offset).toList = [' ', ' '] ++ nearby source.toList offset ++ ['\n', ' ', ' '] ++
      List.replicate (min offset 32) ' ' ++ ['^', '\n'] ∧
    (excerpt source offset).toList.count '\n' = 2 := by
  have hcut : Text.slice? source (Text.byteIndex source (offset - 32))
      (Text.byteIndex source (min (offset + 32 + 1) source.length)) =
        some (String.ofList ((source.toList.take (offset + margin + 1)).drop (offset - margin))) :=
    stretch?_eq source offset
  obtain ⟨hstart, hstop, hle⟩ := Text.between_of_slice? hcut
  refine ⟨⟨hstart, hstop, hle, _, hcut, hcut, ?_⟩, fun h => ?_, toList_excerpt_eq_nearby source offset, ?_⟩
  · rw [String.toList_ofList]
    exact excerptChars_eq_nearby source.toList offset
  · exact nearby_of_length_le (by rwa [String.length_toList])
  · have hupper := List.count_eq_zero.2 (newline_not_mem_excerptChars source.toList offset)
    have hlower : (List.replicate (min offset margin) ' ').count '\n' = 0 := by simp [List.count_replicate]
    simp [toList_excerpt, hupper, hlower]

/-- A letter of two bytes, pointed at from far behind it: nothing is shown above the caret. -/
theorem excerpt_shows_nearby_beyond :
    "é".length ≤ 40 - 32 ∧ (excerpt "é" 40).toList =
      [' ', ' ', '\n', ' ', ' '] ++ List.replicate 32 ' ' ++ ['^', '\n'] := by
  have h := excerpt_shows_nearby "é" 40
  refine ⟨by decide, ?_⟩
  rw [h.2.2.1, h.2.1 (by decide)]
  rfl

end Diagnostic

end TapeMachine
