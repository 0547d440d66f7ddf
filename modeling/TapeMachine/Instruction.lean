/-! The eight instructions and the characters that write them. Every other character of a source
text is a comment, so reading an instruction off a character may give nothing. -/

namespace TapeMachine

inductive Instruction where
  | right
  | left
  | increment
  | decrement
  | output
  | input
  | loopStart
  | loopEnd
deriving DecidableEq, Repr

namespace Instruction

def symbol : Instruction → Char
  | right => '>'
  | left => '<'
  | increment => '+'
  | decrement => '-'
  | output => '.'
  | input => ','
  | loopStart => '['
  | loopEnd => ']'

def ofChar? : Char → Option Instruction
  | '>' => some right
  | '<' => some left
  | '+' => some increment
  | '-' => some decrement
  | '.' => some output
  | ',' => some input
  | '[' => some loopStart
  | ']' => some loopEnd
  | _ => none

def isBracket : Instruction → Bool
  | loopStart | loopEnd => true
  | _ => false

@[simp] theorem ofChar?_symbol (i : Instruction) : ofChar? i.symbol = some i := by
  cases i <;> rfl

theorem symbol_of_ofChar? {c : Char} {i : Instruction} (h : ofChar? c = some i) : i.symbol = c := by
  unfold ofChar? at h
  split at h <;> simp_all [symbol] <;> subst h <;> rfl

end Instruction

end TapeMachine
