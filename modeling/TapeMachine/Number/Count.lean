/-! Counts given as text: one or more decimal digits, after a plus sign if there is one, with a value
below `2 ^ 64`. Leading zeros are allowed and nothing else is. -/

namespace TapeMachine.Number

/-- The value of decimal digits. -/
def digitsValue? (cs : List Char) : Option Nat :=
  if !cs.isEmpty && cs.all Char.isDigit then
    some (cs.foldl (fun n c => n * 10 + (c.toNat - '0'.toNat)) 0)
  else none

def countOfChars? : List Char → Option Nat
  | '+' :: cs => (digitsValue? cs).filter (fun n => n < UInt64.size)
  | cs => (digitsValue? cs).filter (fun n => n < UInt64.size)

def count? (s : String) : Option Nat := countOfChars? s.toList

end TapeMachine.Number
