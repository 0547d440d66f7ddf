import TapeMachine.Text.Reader

/-! Numbers written with the digits of a base up to 16, and characters written by such numbers. -/

namespace TapeMachine.Text

def hexValue? (c : Char) : Option Nat :=
  if c.isDigit then some (c.toNat - '0'.toNat)
  else if 'a' ≤ c ∧ c ≤ 'f' then some (c.toNat - 'a'.toNat + 10)
  else if 'A' ≤ c ∧ c ≤ 'F' then some (c.toNat - 'A'.toNat + 10)
  else none

def isHexDigit (c : Char) : Bool := (hexValue? c).isSome

/-- The number that digits write in a base. -/
def numeral (base : Nat) (digits : List Char) : Nat :=
  digits.foldl (fun n c => n * base + (hexValue? c).getD 0) 0

/-- A character given by its code point in so many hexadecimal digits. -/
def Reader.codePoint (digits : Nat) : Reader Char := do
  let n := numeral 16 (← exactly digits isHexDigit)
  if n.isValidChar then return Char.ofNat n else failure

end TapeMachine.Text
