import TapeMachine.Toml.Text
import TapeMachine.Toml.Value

/-! Numbers. Integers are decimal with an optional sign, or hexadecimal, octal or binary without one,
and lie in the range of 64 bits. Floats have a fraction, an exponent or both, or are infinite or not a
number. Single underscores may separate digits. -/

namespace TapeMachine.Toml

open Text Text.Reader

/-- Digits, any two of which may have an underscore between them. -/
def digits (p : Char → Bool) : Reader (List Char) := do
  let first ← satisfy p
  let rest ← many (satisfy p <|> (do char '_'; satisfy p))
  return first :: rest

/-- A sign; true is minus. -/
def sign : Reader Bool := do
  match ← maybe (satisfy (fun c => c == '+' || c == '-')) with
  | some c => return c == '-'
  | none => return false

/-- The digits of a decimal integer, which has no leading zero. -/
def decimalDigits : Reader (List Char) :=
  (do char '0'; return ['0']) <|> digits Char.isDigit

def decimalInteger : Reader Int := do
  let negative ← sign
  let n := numeral 10 (← decimalDigits)
  return if negative then -(n : Int) else n

def integerInBase (mark : String) (base : Nat) (p : Char → Bool) : Reader Int := do
  text mark
  return (numeral base (← digits p) : Int)

def integer : Reader Int := do
  let n ← integerInBase "0x" 16 isHexDigit
    <|> integerInBase "0o" 8 (fun c => '0' ≤ c && c ≤ '7')
    <|> integerInBase "0b" 2 (fun c => c == '0' || c == '1')
    <|> decimalInteger
  guardBool (Int64.minValue.toInt ≤ n && n ≤ Int64.maxValue.toInt)
  return n

/-- The float nearest to `mantissa * 10 ^ exponent`. Beyond 400 places the value is past the largest
float or below the smallest, whatever the digits are. -/
def floatOfDecimal (mantissa : Nat) (exponent : Int) : Float :=
  let magnitude := exponent + (Nat.toDigits 10 mantissa).length
  if mantissa = 0 ∨ magnitude < -400 then 0.0
  else if 400 < magnitude then Float.ofScientific 1 false 400
  else Float.ofScientific mantissa (exponent < 0) exponent.natAbs

def fraction : Reader (List Char) := do
  char '.'
  digits Char.isDigit

def exponent : Reader Int := do
  let _ ← satisfy (fun c => c == 'e' || c == 'E')
  let negative ← sign
  let n := numeral 10 (← digits Char.isDigit)
  return if negative then -(n : Int) else n

/-- A float in digits. One too large to be finite is refused, unless it is negative. -/
def finiteFloat : Reader Float := do
  let negative ← sign
  let whole ← decimalDigits
  let (places, scale) ←
    (do let e ← exponent; return ([], e))
    <|> (do let places ← fraction; return (places, (← maybe exponent).getD 0))
  let x := floatOfDecimal (numeral 10 (whole ++ places)) (scale - places.length)
  guardBool (negative || x.isFinite)
  return if negative then -x else x

def specialFloat : Reader Float := do
  let negative ← sign
  (do text "inf"; return if negative then -(1.0 / 0.0) else 1.0 / 0.0)
    <|> (do text "nan"; return 0.0 / 0.0)

def float : Reader Float := finiteFloat <|> specialFloat

end TapeMachine.Toml
