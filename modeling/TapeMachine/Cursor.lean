/-! The cursor: the position of the instruction to execute next. -/

namespace TapeMachine

structure Cursor where
  position : Nat := 0
deriving DecidableEq, Repr

namespace Cursor

def advance (c : Cursor) : Cursor := ⟨c.position + 1⟩

def jumpTo (_ : Cursor) (position : Nat) : Cursor := ⟨position⟩

/-- Nothing is left to execute in a program of this size. -/
def isPast (c : Cursor) (size : Nat) : Bool := size ≤ c.position

end Cursor

end TapeMachine
