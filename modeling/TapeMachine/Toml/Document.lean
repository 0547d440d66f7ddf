import TapeMachine.Toml.Draft
import TapeMachine.Toml.Moment

/-! TOML documents: one statement a line. Keys are bare or quoted and may be dotted. Arrays may span
lines, inline tables may not. Keys of 80 parts and values nested 80 deep are refused. -/

namespace TapeMachine.Toml

open Text Text.Reader

/-- Keys have fewer parts than this. -/
def keyPartLimit : Nat := 80

/-- How deep arrays and inline tables may be nested. -/
def nestingLimit : Nat := 79

def isBareKeyChar (c : Char) : Bool := c.isAlphanum || c == '_' || c == '-'

def simpleKey : Reader String :=
  basicString <|> literalString
    <|> (do
      let first ← satisfy isBareKeyChar
      let rest ← run isBareKeyChar
      return String.ofList (first :: rest))

def key : Reader KeyPath := do
  let parts ← sepBy1 (do blanks; let k ← simpleKey; blanks; return k) (char '.')
  guardBool (parts.length < keyPartLimit)
  match parts.getLast? with
  | some name => return ⟨parts.dropLast, name⟩
  | none => failure

def boolean : Reader Bool := (do text "true"; return true) <|> (do text "false"; return false)

def array (value : Reader Value) : Reader Value := do
  char '['
  let items ← maybe (sepBy1 (do gap; let v ← value; gap; return v) (char ','))
  if items.isSome then
    let _ ← maybe (char ',')
  gap
  char ']'
  return .array (items.getD [])

def assignment (value : Reader Value) : Reader (KeyPath × Value) := do
  let k ← key
  char '='
  blanks
  return (k, ← value)

def inlineTable (value : Reader Value) : Reader Value := do
  char '{'
  let assignments ← maybe (sepBy1 (do let a ← assignment value; blanks; return a) (char ','))
  blanks
  char '}'
  match Table.ofAssignments? (assignments.getD []) with
  | some t => return .table t
  | none => failure

/-- A value that holds no other. -/
def scalar : Reader Value :=
  Value.string <$> string
    <|> Value.boolean <$> boolean
    <|> Value.moment <$> moment
    <|> Value.float <$> float
    <|> Value.integer <$> integer

/-- A value with arrays and inline tables nested so deep at most. -/
def valueWithin : Nat → Reader Value
  | 0 => scalar
  | depth + 1 => array (valueWithin depth) <|> inlineTable (valueWithin depth) <|> scalar

def value : Reader Value := valueWithin nestingLimit

def header : Reader Statement := do
  char '['
  let k ← key
  char ']'
  return .header k

def elementHeader : Reader Statement := do
  text "[["
  let k ← key
  text "]]"
  return .elementHeader k

def statement : Reader Statement :=
  elementHeader <|> header <|> (fun a => Statement.assign a.1 a.2) <$> assignment value

/-- A line with its statement if it has one, up to what ends it. -/
def line (ending : Reader Unit) : Reader (Option Statement) := do
  blanks
  let s ← maybe statement
  blanks
  let _ ← maybe comment
  ending
  return s

def document : Reader (List Statement) := do
  let _ ← maybe (char '\uFEFF')
  let lines ← many (line newline)
  let last ← line atEnd
  return (lines ++ [last]).filterMap id

/-- The table that a text describes, if it is a TOML document. -/
def Table.ofText? (s : String) : Option Table :=
  match document s.toList with
  | some (statements, _) => Table.ofStatements? statements
  | none => none

end TapeMachine.Toml
