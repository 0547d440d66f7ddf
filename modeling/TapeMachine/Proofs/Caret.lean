import TapeMachine.Diagnostic
import TapeMachine.Proofs.Safety
import TapeMachine.Proofs.Source

/-! Carets under instructions. The report of a fault that names a position of the program shows two lines
behind the message, and the caret in the second one stands below the instruction at that position. This
holds for every text, since offsets and columns both count characters and a blank in the excerpt takes
one column whatever it is. The positions that faults name hold the instructions that they speak of. -/

namespace TapeMachine

/-- The sentence that reports a fault. -/
inductive Fault.ReportedAs : Fault → String → Prop
  | unclosed (p : ℕ) : ReportedAs (.unmatchedBracket p .opening)
      ("Malformed program: unmatched bracket '[' at instruction " ++ toString p)
  | unopened (p : ℕ) : ReportedAs (.unmatchedBracket p .closing)
      ("Malformed program: unmatched bracket ']' at instruction " ++ toString p)
  | exhausted (p : ℕ) : ReportedAs (.inputExhausted p) ("Input exhausted at instruction " ++ toString p)
  | io (p : ℕ) (reason : String) : ReportedAs (.io p reason)
      ("I/O error at instruction " ++ toString p ++ ": " ++ reason)
  | limit (n : ℕ) : ReportedAs (.stepLimitExceeded n)
      ("Execution aborted: step limit exceeded (" ++ toString n ++ ")")
  | cancelled : ReportedAs .cancelled "Execution aborted: cancelled"

theorem Fault.reportedAs_iff {f : Fault} {sentence : String} : f.ReportedAs sentence ↔ sentence = f.message := by
  constructor
  · rintro (_ | _ | _ | _ | _ | _) <;> rfl
  · rintro rfl
    match f with
    | .unmatchedBracket p .opening => exact .unclosed p
    | .unmatchedBracket p .closing => exact .unopened p
    | .inputExhausted p => exact .exhausted p
    | .io p reason => exact .io p reason
    | .stepLimitExceeded n => exact .limit n
    | .cancelled => exact .cancelled

namespace Diagnostic

/-- What stands in front of a message. -/
def heading : Option String → String
  | some name => name ++ ": "
  | none => ""

theorem line_eq (reporter : Option String) (message : String) :
    line reporter message = heading reporter ++ message ++ "\n" := by
  cases reporter with
  | some name => rfl
  | none => simp [line, heading]

/-- Two lines, the second of which has a caret below this character of the first. -/
def PointsAt (text : String) (c : Char) : Prop :=
  ∃ (above : List Char) (column : ℕ), '\n' ∉ above ∧ above[column]? = some c ∧
    text.toList = above ++ '\n' :: (List.replicate column ' ' ++ ['^', '\n'])

theorem newline_not_mem_excerptChars (cs : List Char) (k : ℕ) : '\n' ∉ excerptChars cs k := by
  intro h
  obtain ⟨c, -, hc⟩ := List.mem_map.1 h
  rw [shown] at hc
  split_ifs at hc with hb
  · simp at hc
  · rw [hc] at hb
    exact hb (by decide)

/-- A character that is no blank is found in the excerpt around it, behind the margin or what there is
of it. -/
theorem getElem?_excerptChars {cs : List Char} {k : ℕ} {c : Char} (h : cs[k]? = some c)
    (hc : Text.isBlank c = false) : (excerptChars cs k)[min k margin]? = some c := by
  have hk : k - margin + min k margin = k := by omega
  rw [excerptChars, List.getElem?_map, List.getElem?_drop, hk, List.getElem?_take_of_lt (by omega), h]
  simp [shown, hc]

theorem pointsAt_excerpt {source : String} {k : ℕ} {c : Char} (h : source.toList[k]? = some c)
    (hc : Text.isBlank c = false) : PointsAt (excerpt source k) c := by
  refine ⟨' ' :: ' ' :: excerptChars source.toList k, min k margin + 2, ?_, ?_, ?_⟩
  · simpa using newline_not_mem_excerptChars source.toList k
  · simpa using getElem?_excerptChars h hc
  · simp [toList_excerpt, List.replicate_succ]

theorem PointsAt.toList_ne_nil {text : String} {c : Char} (h : PointsAt text c) : text.toList ≠ [] := by
  obtain ⟨above, column, -, -, h⟩ := h
  simp [h]

theorem isBlank_symbol (i : Instruction) : Text.isBlank i.symbol = false := by
  cases i <;> decide

/-- The report of a fault is a sentence and shows a character at a position of the program: it stands
there in the source, and below the message there is an excerpt with a caret under it. -/
structure Shows (reporter : Option String) (source : String) (f : Fault) (sentence : String) (position : ℕ)
    (c : Char) : Prop where
  located : ∃ k, (Program.offsets source)[position]? = some k ∧ source.toList[k]? = some c
  pointed : ∃ text, fault reporter source f = heading reporter ++ sentence ++ "\n" ++ text ∧ PointsAt text c

/-- Where the program has an instruction, the report of a fault shows it. -/
theorem shows_of_get? (reporter : Option String) {source sentence : String} {f : Fault} {position : ℕ}
    {i : Instruction} (hf : f.position? = some position) (hs : f.ReportedAs sentence)
    (hi : (Program.ofSource source).get? position = some i) :
    Shows reporter source f sentence position i.symbol := by
  have h := hi
  rw [Program.get?_eq_offsets, Option.bind_eq_some_iff] at h
  obtain ⟨k, hk, h⟩ := h
  obtain ⟨c, hc, h⟩ := Option.bind_eq_some_iff.1 h
  obtain rfl := Instruction.symbol_of_ofChar? h
  refine ⟨⟨k, hk, hc⟩, excerpt source k, ?_, pointsAt_excerpt hc (isBlank_symbol i)⟩
  rw [fault, hf, Option.bind_some, hk, line_eq, Fault.reportedAs_iff.1 hs]

theorem fault_of_size_le (reporter : Option String) {source sentence : String} {f : Fault}
    (hs : f.ReportedAs sentence)
    (h : ∀ position, f.position? = some position → (Program.ofSource source).size ≤ position) :
    fault reporter source f = heading reporter ++ sentence ++ "\n" := by
  have hnone : (f.position?.bind fun position => (Program.offsets source)[position]?) = none := by
    rw [Option.bind_eq_none_iff]
    intro position hp
    rw [List.getElem?_eq_none_iff, Program.length_offsets]
    exact h position hp
  rw [fault, hnone, line_eq, Fault.reportedAs_iff.1 hs]
  simp

/-- A report has an excerpt just when its fault names a position of the program. -/
theorem exists_pointsAt_iff (reporter : Option String) (source : String) {sentence : String} {f : Fault}
    (hs : f.ReportedAs sentence) :
    (∃ text c, fault reporter source f = heading reporter ++ sentence ++ "\n" ++ text ∧ PointsAt text c) ↔
      ∃ position, f.position? = some position ∧ position < (Program.ofSource source).size := by
  constructor
  · rintro ⟨text, c, heq, hp⟩
    by_contra hno
    have hline := fault_of_size_le reporter hs fun position hf =>
      Nat.not_lt.1 fun hlt => hno ⟨position, hf, hlt⟩
    -- Without an excerpt the text behind the message would be empty.
    rw [hline] at heq
    generalize heading reporter ++ sentence ++ "\n" = message at heq
    have hchars := congrArg String.toList heq
    rw [String.toList_append, List.self_eq_append_right] at hchars
    exact hp.toList_ne_nil hchars
  · rintro ⟨position, hf, hlt⟩
    obtain ⟨-, text, h⟩ := shows_of_get? reporter hf hs (Array.getElem?_eq_getElem hlt)
    exact ⟨text, _, h⟩

end Diagnostic

/-- Matching fails at a bracket, which is the instruction at the reported position. -/
theorem JumpTable.unmatched_of_build {p : Program} {f : Fault} (h : build p = .error f) :
    ∃ position b i, f = .unmatchedBracket position b ∧ p.get? position = some i ∧ i.symbol = b.symbol := by
  simp only [← Program.getElem?_toList]
  rcases build_cases p with ⟨t, ht, -⟩ | ⟨start, ps, he, ho⟩ | ⟨l, r, hp, -, he⟩
  · cases ht.symm.trans h
  · cases he.symm.trans h
    generalize p.toList = l at ho ⊢
    cases ho with
    | cons => exact ⟨_, _, .loopStart, rfl, by simp, rfl⟩
  · cases he.symm.trans h
    exact ⟨_, _, .loopEnd, rfl, by simp [hp], rfl⟩

theorem Machine.program_of_ofSource {source : String} {m : Machine} (h : Machine.ofSource source = .ok m) :
    m.program = Program.ofSource source := by
  unfold Machine.ofSource Machine.ofProgram at h
  split at h <;> cases h
  rfl

/-- A run that is stopped by a fault with a position has failed at the instruction there. -/
theorem Machine.fails_of_stopped {World : Type} {m : Machine} {mode : Mode} {hooks : Hooks World}
    {c : Control World} {fuel : ℕ} {w : World} {r : Run World} (h : m.run mode hooks c fuel w = r)
    {f : Fault} {position : ℕ} (hr : r.ending = .stopped f) (hf : f.position? = some position) :
    ∃ w' i, m.program.get? position = some i ∧
      (m.engine hooks mode.eof).Fails r.state w' i f r.world := by
  rcases Machine.stopped_cases h hr with ⟨w', i, -, hi, hfails, -⟩ | ⟨-, hc⟩
  · obtain rfl : r.state.cursor.position = position := by simpa [hfails.position_eq] using hf
    exact ⟨w', i, hi, hfails⟩
  · rcases Control.refuse?_cases hc with ⟨rfl, -⟩ | ⟨n, rfl, -⟩ <;> cases hf

namespace Diagnostic

/-- A caret stands below the instruction that a fault belongs to. A bracket without a partner is shown
in the source, and so is the input or output instruction at which a run stops. The report of any fault
has the two lines of an excerpt behind its message just when the fault names a position of the program;
otherwise the message is all. -/
theorem caret_under_instruction (reporter : Option String) (source : String) :
    (∀ position,
      (JumpTable.build (.ofSource source) = .error (.unmatchedBracket position .opening) →
        Shows reporter source (.unmatchedBracket position .opening)
          ("Malformed program: unmatched bracket '[' at instruction " ++ toString position) position '[') ∧
      (JumpTable.build (.ofSource source) = .error (.unmatchedBracket position .closing) →
        Shows reporter source (.unmatchedBracket position .closing)
          ("Malformed program: unmatched bracket ']' at instruction " ++ toString position) position ']')) ∧
    (∀ m, Machine.ofSource source = .ok m → ∀ (World : Type) (mode : Mode) (hooks : Hooks World)
        (c : Control World) (fuel : ℕ) (w : World) (position : ℕ),
      ((m.run mode hooks c fuel w).ending = .stopped (.inputExhausted position) →
        m.program.get? position = some .input ∧
          Shows reporter source (.inputExhausted position)
            ("Input exhausted at instruction " ++ toString position) position ',') ∧
      ∀ reason, (m.run mode hooks c fuel w).ending = .stopped (.io position reason) →
        let shows := Shows reporter source (.io position reason)
          ("I/O error at instruction " ++ toString position ++ ": " ++ reason) position
        (m.program.get? position = some .input ∧ shows ',') ∨
          (m.program.get? position = some .output ∧ shows '.')) ∧
    ∀ f, ∃ sentence, f.ReportedAs sentence ∧
      ((∃ text c, fault reporter source f = heading reporter ++ sentence ++ "\n" ++ text ∧ PointsAt text c) ↔
        ∃ position, f.position? = some position ∧ position < (Program.ofSource source).size) ∧
      ((∀ position, f.position? = some position → (Program.ofSource source).size ≤ position) →
        fault reporter source f = heading reporter ++ sentence ++ "\n") := by
  have hbracket : ∀ {position b sentence}, Fault.ReportedAs (.unmatchedBracket position b) sentence →
      JumpTable.build (.ofSource source) = .error (.unmatchedBracket position b) →
      Shows reporter source (.unmatchedBracket position b) sentence position b.symbol := by
    intro position b sentence hs h
    obtain ⟨_, _, i, hf, hi, hb⟩ := JumpTable.unmatched_of_build h
    cases hf
    rw [← hb]
    exact shows_of_get? reporter rfl hs hi
  refine ⟨fun position => ⟨hbracket (.unclosed _), hbracket (.unopened _)⟩,
    fun m hm World mode hooks c fuel w position => ⟨fun hr => ?_, fun reason hr => ?_⟩, fun f => ?_⟩
  · obtain ⟨w', i, hi, hf⟩ := Machine.fails_of_stopped rfl hr rfl
    cases hf with
    | exhausted =>
      rw [Machine.program_of_ofSource hm] at hi ⊢
      exact ⟨hi, shows_of_get? reporter rfl (.exhausted _) hi⟩
  · obtain ⟨w', i, hi, hf⟩ := Machine.fails_of_stopped rfl hr rfl
    rw [Machine.program_of_ofSource hm] at hi ⊢
    cases hf with
    | unread => exact .inl ⟨hi, shows_of_get? reporter rfl (.io _ _) hi⟩
    | unwritten => exact .inr ⟨hi, shows_of_get? reporter rfl (.io _ _) hi⟩
  · have hs : f.ReportedAs f.message := Fault.reportedAs_iff.2 rfl
    exact ⟨f.message, hs, exists_pointsAt_iff reporter source hs, fault_of_size_le reporter hs⟩

/-- The `]` of a text that has a letter of two bytes and a line break in front of it, and the `,` at which
a run meets the end of the input. -/
theorem caret_under_instruction_letter :
    JumpTable.build (.ofSource "é\n+]") = .error (.unmatchedBracket 1 .closing) ∧
    Shows none "é\n+]" (.unmatchedBracket 1 .closing)
      "Malformed program: unmatched bracket ']' at instruction 1" 1 ']' ∧
    ∃ m : Machine, Machine.ofSource "+," = .ok m ∧
      (m.run ⟨.byte, .error⟩ Device.hooks {} 2 {}).ending = .stopped (.inputExhausted 1) ∧
      Shows (some "tapevm") "+," (.inputExhausted 1) "Input exhausted at instruction 1" 1 ',' := by
  have hb : JumpTable.build (.ofSource "é\n+]") = .error (.unmatchedBracket 1 .closing) := by decide
  let m : Machine := ⟨.ofSource "+,", ⟨#[none, none]⟩, by decide⟩
  have hm : Machine.ofSource "+," = .ok m := rfl
  have hr : (m.run ⟨.byte, .error⟩ Device.hooks {} 2 {}).ending = .stopped (.inputExhausted 1) := by decide
  exact ⟨hb, ((caret_under_instruction none _).1 1).2 hb, m, hm, hr,
    (((caret_under_instruction (some "tapevm") _).2.1 m hm _ _ _ _ _ _ _).1 hr).2⟩

end Diagnostic

end TapeMachine
