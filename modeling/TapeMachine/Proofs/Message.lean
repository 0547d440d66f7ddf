import TapeMachine.Proofs.Excerpt

/-! What is told about a fault, letter by letter: the name of the program, the sentence of the fault and the
window of the source around its instruction. Reports of whole commands are stated with this relation, which
does not mention how the text is put together. -/

namespace TapeMachine.Diagnostic

/-- The two lines that point at the instruction at a position: the characters of the source around it, and
a caret in the column below it. -/
def Window (source : String) (position : ℕ) (text : String) : Prop :=
  ∃ k, (Program.offsets source)[position]? = some k ∧
    text.toList = [' ', ' '] ++ nearby source.toList k ++ ['\n', ' ', ' '] ++ List.replicate (min k 32) ' ' ++
      ['^', '\n']

/-- A program of this name tells of a fault at an instruction of a source. -/
inductive Tells (name source : String) : Fault → String → Prop
  | intro {f : Fault} {position : ℕ} {sentence window : String} (hf : f.position? = some position)
    (hs : f.ReportedAs sentence) (hw : Window source position window) :
    Tells name source f (name ++ ": " ++ sentence ++ "\n" ++ window)

theorem Window.unique {source text text' : String} {position : ℕ} (h : Window source position text)
    (h' : Window source position text') : text = text' := by
  obtain ⟨k, hk, htext⟩ := h
  obtain ⟨k', hk', htext'⟩ := h'
  cases hk.symm.trans hk'
  exact String.toList_injective (htext.trans htext'.symm)

theorem Tells.unique {name source text text' : String} {f : Fault} (h : Tells name source f text)
    (h' : Tells name source f text') : text = text' := by
  obtain ⟨hf, hs, hw⟩ := h
  obtain ⟨hf', hs', hw'⟩ := h'
  cases hf.symm.trans hf'
  rw [Fault.reportedAs_iff.1 hs, Fault.reportedAs_iff.1 hs', hw.unique hw']

theorem window_excerpt {source : String} {position k : ℕ} (h : (Program.offsets source)[position]? = some k) :
    Window source position (excerpt source k) :=
  ⟨k, h, toList_excerpt_eq_nearby source k⟩

theorem tells_fault (name : String) {source : String} {f : Fault} {position : ℕ}
    (hf : f.position? = some position) (hlt : position < (Program.ofSource source).size) :
    Tells name source f (fault (some name) source f) := by
  rw [← Program.length_offsets] at hlt
  have hk := List.getElem?_eq_getElem hlt
  rw [fault, hf, Option.bind_some, hk, line_eq]
  exact .intro hf (Fault.reportedAs_iff.2 rfl) (window_excerpt hk)

/-- The bracket at which matching fails is an instruction of the program. -/
theorem tells_unmatched (name : String) {source : String} {f : Fault}
    (h : JumpTable.build (.ofSource source) = .error f) : Tells name source f (fault (some name) source f) := by
  obtain ⟨position, b, i, rfl, hi, -⟩ := JumpTable.unmatched_of_build h
  exact tells_fault name rfl (Engine.lt_size_of_get? hi)

theorem tells_stopped (name : String) {source : String} {m : Machine} (hm : Machine.ofSource source = .ok m)
    {World : Type} {mode : Mode} {hooks : Hooks World} {c : Control World} {fuel : ℕ} {w : World} {f : Fault}
    (hr : (m.run mode hooks c fuel w).ending = .stopped f) {position : ℕ} (hf : f.position? = some position) :
    Tells name source f (fault (some name) source f) := by
  obtain ⟨-, i, hi, -⟩ := Machine.fails_of_stopped rfl hr hf
  rw [Machine.program_of_ofSource hm] at hi
  exact tells_fault name hf (Engine.lt_size_of_get? hi)

end TapeMachine.Diagnostic
