/-! Classes of characters from the Unicode standard, version 17. A class is given by the code points at
which membership changes, ascending, from the first that belongs to it. -/

namespace TapeMachine.Text

structure CharClass where
  bounds : List Nat

/-- An odd number of changes lie at or before a character that belongs to the class. -/
def CharClass.has (k : CharClass) (c : Char) : Bool :=
  k.bounds.countP (fun bound => bound ≤ c.toNat) % 2 == 1

end TapeMachine.Text
