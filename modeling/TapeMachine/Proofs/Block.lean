import TapeMachine.Proofs.Grammar
import TapeMachine.Fault
import TapeMachine.Hooks
import TapeMachine.Tape

/-! Programs as trees, and what they mean without a cursor and without a table. A `Block` is a
derivation of the grammar, so a derivable text is the text of exactly one. Its meaning is defined by
recursion on it and relates a tape and a world to a cost and a finish; a loop that never gets out of
its rounds has no finish. -/

namespace TapeMachine

/-- The instructions that are no brackets. -/
inductive Primitive where
  | right
  | left
  | increment
  | decrement
  | output
  | input
deriving DecidableEq, Repr

def Primitive.instruction : Primitive → Instruction
  | right => .right
  | left => .left
  | increment => .increment
  | decrement => .decrement
  | output => .output
  | input => .input

theorem Primitive.isBracket_instruction (p : Primitive) : p.instruction.isBracket = false := by
  cases p <;> rfl

theorem Primitive.exists_instruction {i : Instruction} (hi : i.isBracket = false) :
    ∃ p : Primitive, p.instruction = i := by
  cases i
  case right => exact ⟨right, rfl⟩
  case left => exact ⟨left, rfl⟩
  case increment => exact ⟨increment, rfl⟩
  case decrement => exact ⟨decrement, rfl⟩
  case output => exact ⟨output, rfl⟩
  case input => exact ⟨input, rfl⟩
  all_goals cases hi

theorem Primitive.instruction_injective {p q : Primitive} (h : p.instruction = q.instruction) :
    p = q := by
  cases p <;> cases q <;> first | rfl | cases h

inductive Block where
  | done
  | op (p : Primitive) (rest : Block)
  | loop (body rest : Block)

namespace Block

def text : Block → List Instruction
  | done => []
  | op p rest => p.instruction :: rest.text
  | loop body rest => .loopStart :: (body.text ++ .loopEnd :: rest.text)

theorem balanced_text (b : Block) : Balanced b.text := by
  induction b with
  | done => exact .nil
  | op p rest ih => exact .plain p.isBracket_instruction ih
  | loop body rest ihb ihr => exact .loop ihb ihr

theorem exists_text {l : List Instruction} (h : Balanced l) : ∃ b : Block, b.text = l := by
  induction h with
  | nil => exact ⟨done, rfl⟩
  | plain hi _ ih =>
    obtain ⟨p, rfl⟩ := Primitive.exists_instruction hi
    obtain ⟨rest, rfl⟩ := ih
    exact ⟨op p rest, rfl⟩
  | loop _ _ ihb ihr =>
    obtain ⟨body, rfl⟩ := ihb
    obtain ⟨rest, rfl⟩ := ihr
    exact ⟨loop body rest, rfl⟩

/-- A text has one derivation. -/
theorem text_injective {b b' : Block} (h : b.text = b'.text) : b = b' := by
  induction b generalizing b' with
  | done => cases b' <;> first | rfl | cases h
  | op p rest ih =>
    cases b' with
    | done => cases h
    | op q rest' =>
      obtain ⟨hp, hr⟩ := List.cons.inj h
      rw [Primitive.instruction_injective hp, ih hr]
    | loop body' rest' =>
      have := (List.cons.inj h).1
      cases p <;> cases this
  | loop body rest ihb ihr =>
    cases b' with
    | done => cases h
    | op q rest' =>
      have := (List.cons.inj h).1
      cases q <;> cases this
    | loop body' rest' =>
      obtain ⟨hb, hr⟩ := Balanced.cut body.balanced_text body'.balanced_text (List.cons.inj h).2
      rw [ihb hb, ihr hr]

end Block

/-- How a stretch of a program comes out: with the tape and the world behind it, or with a fault. -/
inductive Finish (World : Type) where
  | completed (tape : Tape) (world : World)
  | failed (fault : Fault) (tape : Tape) (world : World)

/-- The costs and finishes to which a tape and a world lead. -/
abbrev Meaning (World : Type) := Tape → World → ℕ → Finish World → Prop

variable {World : Type}

namespace Meaning

inductive Skip : Meaning World
  | skip {t : Tape} {w : World} : Skip t w 0 (.completed t w)

/-- A single action, which costs 1 unless it fails. -/
inductive Act (act : Tape → World → Except Fault Tape × World) : Meaning World
  | completed {t t' : Tape} {w w' : World} (h : act t w = (.ok t', w')) :
      Act act t w 1 (.completed t' w')
  | failed {t : Tape} {w w' : World} {fault : Fault} (h : act t w = (.error fault, w')) :
      Act act t w 0 (.failed fault t w')

/-- The first, and the second behind it unless the first fails. -/
inductive Then (first second : Meaning World) : Meaning World
  | both {t t' : Tape} {w w' : World} {k k' : ℕ} {r : Finish World}
      (h : first t w k (.completed t' w')) (h' : second t' w' k' r) : Then first second t w (k + k') r
  | failed {t t' : Tape} {w w' : World} {k : ℕ} {fault : Fault}
      (h : first t w k (.failed fault t' w')) : Then first second t w k (.failed fault t' w')

/-- The rounds of a loop that has been entered: the body, then the closing test, which costs 1 and
starts the next round unless it sees 0. -/
inductive Rounds (body : Meaning World) : Meaning World
  | last {t t' : Tape} {w w' : World} {k : ℕ} (h : body t w k (.completed t' w')) (h0 : t'.read = 0) :
      Rounds body t w (k + 1) (.completed t' w')
  | again {t t' : Tape} {w w' : World} {k k' : ℕ} {r : Finish World}
      (h : body t w k (.completed t' w')) (h0 : t'.read ≠ 0) (h' : Rounds body t' w' k' r) :
      Rounds body t w (k + 1 + k') r
  | failed {t t' : Tape} {w w' : World} {k : ℕ} {fault : Fault}
      (h : body t w k (.failed fault t' w')) : Rounds body t w k (.failed fault t' w')

/-- A loop: the opening test costs 1 and leaves the loop if it sees 0. -/
inductive Loop (body : Meaning World) : Meaning World
  | left {t : Tape} {w : World} (h0 : t.read = 0) : Loop body t w 1 (.completed t w)
  | entered {t : Tape} {w : World} {k : ℕ} {r : Finish World} (h0 : t.read ≠ 0)
      (h : Rounds body t w k r) : Loop body t w (1 + k) r

end Meaning

/-- What a primitive does to the tape and the world; a fault names its position in the program. -/
def Primitive.act (hooks : Hooks World) (eof : EofPolicy) (position : ℕ) :
    Primitive → Tape → World → Except Fault Tape × World
  | right, t, w => (.ok (t.move 1), w)
  | left, t, w => (.ok (t.move (-1)), w)
  | increment, t, w => (.ok (t.adjust 1), w)
  | decrement, t, w => (.ok (t.adjust (-1)), w)
  | output, t, w =>
    match hooks.write (Tape.outputByte t.read) w with
    | (.accepted, w) => (.ok t, w)
    | (.failure reason, w) => (.error (.io position reason), w)
  | input, t, w =>
    match hooks.read w with
    | (.byte b, w) => (.ok (t.write (Int64.ofNat b.toNat)), w)
    | (.failure reason, w) => (.error (.io position reason), w)
    | (.endOfInput, w) =>
      match eof with
      | .zero => (.ok (t.write 0), w)
      | .unchanged => (.ok t, w)
      | .error => (.error (.inputExhausted position), w)

/-- The meaning of a block whose text begins at a position of the program. -/
def Block.meaning (hooks : Hooks World) (eof : EofPolicy) : Block → ℕ → Meaning World
  | done, _ => Meaning.Skip
  | op p rest, position =>
    Meaning.Then (Meaning.Act (p.act hooks eof position)) (rest.meaning hooks eof (position + 1))
  | loop body rest, position =>
    Meaning.Then (Meaning.Loop (body.meaning hooks eof (position + 1)))
      (rest.meaning hooks eof (position + body.text.length + 2))

end TapeMachine
