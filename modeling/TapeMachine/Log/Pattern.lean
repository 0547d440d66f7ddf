import TapeMachine.Text.Numeral

/-! The values that a directive may ask of a field: numbers and patterns. A pattern is a regular
expression that stands between braces, without a closing brace, a comma or an equals sign, so it has
no counted repetition and no named property. Patterns know no tables of letters: classes such as `\w`,
word boundaries and the disregard of case are refused. Only their form is decided here. -/

namespace TapeMachine.Log.Pattern

open Text Text.Reader

def escaped : Reader Char := do
  char '\\'
  match ← satisfy (fun c => c.toNat < 0x80) with
  | 'a' => return '\x07'
  | 'f' => return '\x0c'
  | 't' => return '\t'
  | 'n' => return '\n'
  | 'r' => return '\r'
  | 'v' => return '\x0b'
  | 'x' => codePoint 2
  | 'u' => codePoint 4
  | 'U' => codePoint 8
  | c => if c.isAlphanum || c == '<' || c == '>' then failure else return c

def textEdge : Reader Unit := text "\\A" <|> text "\\z"

/-- One character of a class, or two with a dash between them in ascending order. A dash in front of
another or of the end of the class joins nothing. -/
def classRange : Reader Unit := do
  let first ← escaped <|> satisfy (fun c => c != '\\' && c != '[' && c != ']')
  let last ← maybe (do
    char '-'
    escaped <|> satisfy (fun c => c != '\\' && c != '-' && c != ']'))
  guardBool (last.all (fun last => first ≤ last))

def classOperator : Reader Unit := text "&&" <|> text "--" <|> text "~~"

/-- A class of characters with classes nested so deep at most. The bracket that closes it does not
stand first, though dashes may stand before it. -/
def classWithin : Nat → Reader Unit
  | 0 => failure
  | depth + 1 => do
    char '['
    let _ ← maybe (char '^')
    let dashes ← run (fun c => c == '-')
    if dashes.isEmpty then
      let _ ← maybe (char ']')
    let _ ← many (classOperator <|> classRange <|> classWithin depth)
    char ']'

/-- Flags that are set and, behind a dash, flags that are cleared; none is named twice. -/
def flags : Reader (List Char) := do
  let names ← run (fun c => "imsUuRx-".toList.contains c)
  guardBool (names.eraseDups == names && names.getLast? != some '-'
    && !(names.takeWhile (fun c => c != '-')).contains 'i')
  return names

def groupName : Reader Unit := do
  let _ ← maybe (char 'P')
  char '<'
  let _ ← satisfy (fun c => c == '_' || c.isAlpha)
  let _ ← run (fun c => c.isAlphanum || "_.[]".toList.contains c)
  char '>'

def groupHead : Reader Unit := do
  char '?'
  groupName <|> (do let _ ← flags; char ':')

/-- Flags for the rest of a group. There is nothing in them to repeat. -/
def flagChange : Reader Unit := do
  text "(?"
  let names ← flags
  guardBool !names.isEmpty
  char ')'

def repetition : Reader Unit := do
  let _ ← satisfy (fun c => c == '*' || c == '+' || c == '?')
  let _ ← maybe (char '?')

def isPlain (c : Char) : Bool := !("\\[()|*+?\x7b".toList.contains c)

/-- Alternatives with groups nested so deep at most. -/
def alternativesWithin : Nat → Reader Unit
  | 0 => failure
  | depth + 1 => do
    let group : Reader Unit := do
      char '('
      let _ ← maybe groupHead
      alternativesWithin depth
      char ')'
    let one : Reader Unit :=
      (do let _ ← satisfy isPlain) <|> (do let _ ← escaped) <|> textEdge <|> classWithin (depth + 1)
        <|> group
    let repeated : Reader Unit := do
      one
      let _ ← many repetition
    let _ ← sepBy1 (many (flagChange <|> repeated)) (char '|')

/-- A pattern cannot be nested deeper than it is long. -/
def isPattern (cs : List Char) : Bool :=
  ((do alternativesWithin (cs.length + 1); atEnd : Reader Unit) cs).isSome

def signedNumber : Reader Unit := do
  char '+'
  let digits ← run Char.isDigit
  let places ← maybe (do char '.'; run Char.isDigit)
  guardBool !(digits ++ places.getD []).isEmpty
  let _ ← maybe (do
    let _ ← satisfy (fun c => c == 'e' || c == 'E')
    let _ ← maybe (satisfy (fun c => c == '+' || c == '-'))
    let _ ← satisfy Char.isDigit
    run Char.isDigit)
  atEnd

def isSignedWord (cs : List Char) : Bool :=
  ["+inf", "+infinity", "+nan"].contains (String.ofList (cs.map Char.toLower))

def isValue (cs : List Char) : Bool := isPattern cs || (signedNumber cs).isSome || isSignedWord cs

end TapeMachine.Log.Pattern
