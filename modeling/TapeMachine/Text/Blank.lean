/-! The blank characters: the 25 that the Unicode standard gives the property White_Space. Core's
`Char.isWhitespace` knows four of them. -/

namespace TapeMachine.Text

/-- Closed ranges of code points, ascending. -/
def blankRanges : List (Nat × Nat) :=
  [(0x09, 0x0D), (0x20, 0x20), (0x85, 0x85), (0xA0, 0xA0), (0x1680, 0x1680), (0x2000, 0x200A),
   (0x2028, 0x2029), (0x202F, 0x202F), (0x205F, 0x205F), (0x3000, 0x3000)]

def isBlank (c : Char) : Bool :=
  blankRanges.any (fun range => range.1 ≤ c.toNat && c.toNat ≤ range.2)

example : (blankRanges.map (fun range => range.2 + 1 - range.1)).sum = 25 := by decide

end TapeMachine.Text
