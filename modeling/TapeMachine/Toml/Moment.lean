import TapeMachine.Toml.Number

/-! Dates and times of day, alone or together. Only existing dates are read; a minute may have 61
seconds. -/

namespace TapeMachine.Toml

open Text Text.Reader

/-- A number in exactly so many digits that lies in a range. -/
def numberIn (digits low high : Nat) : Reader Nat := do
  let n := numeral 10 (← exactly digits Char.isDigit)
  guardBool (low ≤ n && n ≤ high)
  return n

def isLeapYear (year : Nat) : Bool := year % 4 == 0 && (year % 100 != 0 || year % 400 == 0)

def daysInMonth (year month : Nat) : Nat :=
  match month with
  | 2 => if isLeapYear year then 29 else 28
  | 4 | 6 | 9 | 11 => 30
  | _ => 31

def date : Reader Unit := do
  let year ← numberIn 4 0 9999
  char '-'
  let month ← numberIn 2 1 12
  char '-'
  let day ← numberIn 2 1 31
  guardBool (day ≤ daysInMonth year month)

def timeOfDay : Reader Unit := do
  let _ ← numberIn 2 0 23
  char ':'
  let _ ← numberIn 2 0 59
  char ':'
  let _ ← numberIn 2 0 60
  match ← maybe (char '.') with
  | some _ =>
    let _ ← satisfy Char.isDigit
    let _ ← run Char.isDigit
  | none => pure ()

def offset : Reader Unit :=
  (do let _ ← satisfy (fun c => c == 'Z' || c == 'z'))
    <|> (do
      let _ ← satisfy (fun c => c == '+' || c == '-')
      let _ ← numberIn 2 0 23
      char ':'
      let _ ← numberIn 2 0 59)

/-- A date and a time are joined by a letter or one space. -/
def joinedTime : Reader Unit := do
  let _ ← satisfy (fun c => c == 'T' || c == 't' || c == ' ')
  timeOfDay
  let _ ← maybe offset

def moment : Reader String :=
  taken ((do date; let _ ← maybe joinedTime) <|> timeOfDay)

end TapeMachine.Toml
