import TapeMachine.Text.Numeral
import TapeMachine.Toml.Layout

/-! Strings: in double quotes with escapes or in single quotes as they stand, on one line, or between
tripled quotes over several lines. -/

namespace TapeMachine.Toml

open Text Text.Reader

def escape : Reader Char := do
  char '\\'
  match ← satisfy (fun _ => true) with
  | 'b' => return '\x08'
  | 't' => return '\t'
  | 'n' => return '\n'
  | 'f' => return '\x0c'
  | 'r' => return '\r'
  | '"' => return '"'
  | '\\' => return '\\'
  | 'u' => codePoint 4
  | 'U' => codePoint 8
  | _ => failure

/-- The characters that stand for themselves inside quotes of a kind, where a backslash may or may
not be one of them. -/
def isPlain (quote : Char) (backslash : Bool) (c : Char) : Bool :=
  c != quote && (backslash || c != '\\')
    && (c == '\t' || (0x20 ≤ c.toNat && c.toNat ≤ 0x7E) || isNonAscii c)

def basicString : Reader String := do
  char '"'
  let cs ← many (satisfy (isPlain '"' false) <|> escape)
  char '"'
  return String.ofList cs

def literalString : Reader String := do
  char '\''
  let cs ← run (isPlain '\'' true)
  char '\''
  return String.ofList cs

/-- One or two quotes that do not begin the end of the string. -/
def innerQuotes (quote : Char) : Reader (List Char) := do
  let quotes ← run (fun c => c == quote)
  guardBool (quotes.length == 1 || quotes.length == 2)
  return quotes

/-- The closing quotes of a string over several lines; up to two more may stand before them. -/
def closingQuotes (quote : Char) : Reader (List Char) := do
  let quotes ← run (fun c => c == quote)
  guardBool (3 ≤ quotes.length && quotes.length ≤ 5)
  return quotes.drop 3

/-- A backslash at the end of a line takes the white space after it out of the string. -/
def continuation : Reader Unit := do
  char '\\'
  blanks
  newline
  let _ ← many (((fun _ => ()) <$> satisfy isBlank) <|> newline)

/-- A string between tripled quotes, whose pieces are read by `piece`. A line break right after the
opening quotes is no part of it. -/
def multiline (quote : Char) (piece : Reader (List Char)) : Reader String := do
  char quote
  char quote
  char quote
  let _ ← maybe newline
  let pieces ← many (piece <|> (do newline; return ['\n']) <|> innerQuotes quote)
  let closing ← closingQuotes quote
  return String.ofList (pieces.flatten ++ closing)

def multilineBasicString : Reader String :=
  multiline '"'
    ((fun c => [c]) <$> satisfy (isPlain '"' false)
      <|> (do continuation; return [])
      <|> (fun c => [c]) <$> escape)

def multilineLiteralString : Reader String :=
  multiline '\'' ((fun c => [c]) <$> satisfy (isPlain '\'' true))

def string : Reader String :=
  multilineBasicString <|> basicString <|> multilineLiteralString <|> literalString

end TapeMachine.Toml
