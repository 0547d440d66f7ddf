import TapeMachine.Text.Reader

/-! What stands between the parts of a document: blanks, line breaks and comments. -/

namespace TapeMachine.Toml

open Text Text.Reader

def isBlank (c : Char) : Bool := c == ' ' || c == '\t'

def isNonAscii (c : Char) : Bool := 0x80 ≤ c.toNat

def blanks : Reader Unit := do
  let _ ← run isBlank

def newline : Reader Unit := char '\n' <|> text "\r\n"

/-- A comment up to the end of its line, which stays. -/
def comment : Reader Unit := do
  char '#'
  let _ ← run (fun c => c == '\t' || (0x20 ≤ c.toNat && c.toNat ≤ 0x7E) || isNonAscii c)

/-- What may stand between the values of an array. -/
def gap : Reader Unit := do
  let _ ← many (((fun _ => ()) <$> satisfy isBlank) <|> newline <|> (do comment; newline))

end TapeMachine.Toml
