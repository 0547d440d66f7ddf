/-! The shortest decimal that identifies a binary float. A finite float stands for all reals that
round to it. Of the decimals among those, the one with the fewest digits is chosen, of two with
equally many the nearer one, and of two equally near the larger. All comparisons are made between
naturals: a float is itself a decimal with finitely many digits, so one power of ten puts it and the
ends of its interval on a common scale. -/

namespace TapeMachine.Number

structure Decimal where
  digits : Nat
  exponent : Int
deriving DecidableEq, Repr

/-- A positive float, four times enlarged in its mantissa so that the ends of its interval are
naturals too: its value is `4 * mantissa * 2 ^ exponent`. -/
structure Binary where
  mantissa : Nat
  exponent : Int
  /-- The float below is only half as far away as the one above. -/
  narrowBelow : Bool

def Binary.ofBits (bits : UInt64) : Binary :=
  let biased := ((bits >>> 52) &&& 0x7FF).toNat
  let fraction := (bits &&& 0xFFFFFFFFFFFFF).toNat
  if biased = 0 then ⟨fraction, -1076, false⟩
  else ⟨0x10000000000000 + fraction, (biased : Int) - 1077, fraction == 0 && biased != 1⟩

namespace Binary

/-- The number `n * 2 ^ exponent` in units of the smallest decimal place that the float needs. -/
def scaled (x : Binary) (n : Nat) : Nat :=
  if x.exponent < 0 then n * Nat.pow 5 x.exponent.natAbs else n * Nat.pow 2 x.exponent.natAbs

def unit (x : Binary) : Int := min x.exponent 0

/-- The number of units lies among the reals that round to the float. The ends do when the mantissa is
even. -/
def reads (x : Binary) (units : Nat) : Bool :=
  let low := x.scaled (4 * x.mantissa - if x.narrowBelow then 1 else 2)
  let high := x.scaled (4 * x.mantissa + 2)
  (low < units && units < high) || (x.mantissa % 2 == 0 && (units == low || units == high))

def ofDigits? (x : Binary) (count : Nat) : Option Decimal :=
  let value := x.scaled (4 * x.mantissa)
  let dropped := (Nat.toDigits 10 value).length - count
  let place := Nat.pow 10 dropped
  let below := value / place
  let decimal (digits : Nat) : Decimal := ⟨digits, x.unit + dropped⟩
  match x.reads (below * place), x.reads ((below + 1) * place) with
  | true, true =>
    if 2 * value < (below + (below + 1)) * place then some (decimal below)
    else some (decimal (below + 1))
  | true, false => some (decimal below)
  | false, true => some (decimal (below + 1))
  | false, false => none

/-- Seventeen digits always identify a float. -/
def shortest (x : Binary) : Decimal :=
  ((List.range 17).findSome? (fun n => x.ofDigits? (n + 1))).getD
    ⟨x.scaled (4 * x.mantissa), x.unit⟩

end Binary

def Decimal.positional (d : Decimal) : String :=
  let digits := Nat.toDigits 10 d.digits
  let places := (-d.exponent).toNat
  let padded := List.replicate (places + 1 - digits.length) '0' ++ digits
  let whole := padded.take (padded.length - places)
  let fraction := (padded.drop (padded.length - places)).reverse.dropWhile (fun c => c == '0')
  String.ofList (whole ++ List.replicate d.exponent.toNat '0') ++ "."
    ++ (if fraction.isEmpty then "0" else String.ofList fraction.reverse)

/-- A float in positional notation with the fewest digits that identify it. -/
def floatText (x : Float) : String :=
  let bits := x.toBits
  if x.isNaN then "NaN"
  else
    let sign := if bits >>> 63 = 0 then "" else "-"
    if x.isInf then sign ++ "inf"
    else if bits <<< 1 = 0 then sign ++ "0.0"
    else sign ++ (Binary.ofBits bits).shortest.positional

end TapeMachine.Number
