/-! How values are written in a log: records with the names of their fields in braces, missing values
as `None` and others wrapped in `Some`, durations in the largest unit that leaves a whole part. -/

namespace TapeMachine.Log

def record (name : String) (fields : List (String × String)) : String :=
  name ++ " \x7b " ++ ", ".intercalate (fields.map (fun f => f.1 ++ ": " ++ f.2)) ++ " \x7d"

def optional (text : Nat → String) : Option Nat → String
  | none => "None"
  | some n => "Some(" ++ text n ++ ")"

/-- A duration in seconds with as many of its three places as it needs, or in milliseconds below a
second. Nothing at all is written in the smallest unit. -/
def duration (ms : Nat) : String :=
  if ms = 0 then "0ns"
  else if ms < 1000 then toString ms ++ "ms"
  else
    let places := [ms % 1000 / 100, ms % 100 / 10, ms % 10]
    let needed := (places.reverse.dropWhile (fun d => d == 0)).reverse
    toString (ms / 1000)
      ++ (if needed.isEmpty then "" else "." ++ String.join (needed.map (fun d => toString d))) ++ "s"

end TapeMachine.Log
