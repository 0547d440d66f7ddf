/-! Readers: functions that take something off the front of a text, or refuse it and take nothing. -/

namespace TapeMachine.Text

abbrev Reader := StateT (List Char) Option

namespace Reader

variable {α β : Type}

/-- Takes a character of a class. -/
def satisfy (p : Char → Bool) : Reader Char
  | [] => none
  | c :: rest => if p c then some (c, rest) else none

def char (c : Char) : Reader Unit := do
  let _ ← satisfy (fun d => d == c)

def text (s : String) : Reader Unit := s.toList.forM char

/-- Takes the longest run of characters of a class, which may be empty. -/
def run (p : Char → Bool) : Reader (List Char) := fun cs => some (cs.takeWhile p, cs.dropWhile p)

def atEnd : Reader Unit
  | [] => some ((), [])
  | _ :: _ => none

def maybe (r : Reader α) : Reader (Option α) := some <$> r <|> pure none

def upTo (r : Reader α) : Nat → Reader (List α)
  | 0 => pure []
  | n + 1 => do
    match ← maybe r with
    | none => return []
    | some a => return a :: (← upTo r n)

/-- Takes as many as there are. A reader that takes at least one character each time cannot be
stopped by the bound, which is the length of the text. -/
def many (r : Reader α) : Reader (List α) := fun cs => upTo r cs.length cs

def sepBy1 (r : Reader α) (separator : Reader β) : Reader (List α) := do
  let first ← r
  let rest ← many (do let _ ← separator; r)
  return first :: rest

/-- What a reader took, as text. -/
def taken (r : Reader α) : Reader String := fun cs =>
  (r cs).map (fun (_, rest) => (String.ofList (cs.take (cs.length - rest.length)), rest))

/-- Takes exactly so many characters of a class. -/
def exactly (n : Nat) (p : Char → Bool) : Reader (List Char) :=
  (List.replicate n ()).mapM (fun _ => satisfy p)

/-- Refuses what does not meet a condition. -/
def guardBool (b : Bool) : Reader Unit := if b then pure () else failure

end Reader

end TapeMachine.Text
