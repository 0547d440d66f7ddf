import TapeMachine.Instruction

/-! A program is the sequence of instructions of a source text. Positions in a program and offsets
in its text are two different counts: `offsets` lists where in the text each instruction stands. -/

namespace TapeMachine

structure Program where
  instructions : Array Instruction
deriving DecidableEq, Repr

namespace Program

def ofList (l : List Instruction) : Program := ⟨l.toArray⟩

def toList (p : Program) : List Instruction := p.instructions.toList

def size (p : Program) : Nat := p.instructions.size

def isEmpty (p : Program) : Bool := p.instructions.isEmpty

def get? (p : Program) (position : Nat) : Option Instruction := p.instructions[position]?

def bracketCount (p : Program) : Nat := p.toList.countP Instruction.isBracket

def ofChars (cs : List Char) : Program := ofList (cs.filterMap Instruction.ofChar?)

/-- The instructions of a text in order, comments left out. -/
def ofSource (source : String) : Program := ofChars source.toList

/-- Reads a text through another alphabet: each character stands for the one it is mapped to, and
unmapped characters are comments. -/
def ofSourceVia (alphabet : Char → Option Char) (source : String) : Program :=
  ofChars (source.toList.filterMap alphabet)

/-- The program in its standard symbols, without comments. -/
def render (p : Program) : String := String.ofList (p.toList.map Instruction.symbol)

/-- The indices of the characters that are instructions, ascending. -/
def offsetsOfChars (cs : List Char) : List Nat :=
  (cs.zipIdx.filter (fun c => (Instruction.ofChar? c.1).isSome)).map (fun c => c.2)

def offsets (source : String) : List Nat := offsetsOfChars source.toList

@[simp] theorem toList_ofList (l : List Instruction) : (ofList l).toList = l := rfl

@[simp] theorem length_toList (p : Program) : p.toList.length = p.size := rfl

theorem getElem?_toList (p : Program) (i : Nat) : p.toList[i]? = p.get? i := by
  simp [toList, get?]

theorem ofChars_append (s t : List Char) :
    ofChars (s ++ t) = ofList ((ofChars s).toList ++ (ofChars t).toList) := by
  simp [ofChars]

end Program

end TapeMachine
