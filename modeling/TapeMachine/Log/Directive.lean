import TapeMachine.Log.Event
import TapeMachine.Log.Pattern
import TapeMachine.Number.Count
import TapeMachine.Text.Alphanumeric
import TapeMachine.Text.Blank

/-! Directives: the pieces of a filter. A directive is a level for everything, or the beginning of a
path, which may be followed by a condition in brackets and by an equals sign with a level; without a
level it asks for all detail. A condition is the name of a span, a stretch of work, or in braces the
name of a value that an event has, or both. The program does its work in no spans, so a directive about
spans selects nothing, nor does one that asks for more of a value than that it is there. -/

namespace TapeMachine.Log

open Text Text.Reader

structure Directive where
  /-- The beginning of the paths that are meant; without one, all are. -/
  path : Option (List Char) := none
  /-- The name of a value that the events meant have. -/
  field : Option (List Char) := none
  forSpans : Bool := false
  detail : Nat
deriving DecidableEq, Repr

structure Condition where
  field : Option (List Char)
  forSpans : Bool
deriving DecidableEq, Repr

structure Clause where
  path : List Char
  condition : Option Condition
  level : Option (List Char)
deriving DecidableEq, Repr

def allDetail : Nat := Level.trace.detail

/-- The detail that a level asks for, named in any case or given as a number up to 5. -/
def detail? (cs : List Char) : Option Nat :=
  match Number.countOfChars? cs with
  | some n => if n ≤ allDetail then some n else none
  | none =>
    match String.ofList (cs.map Char.toLower) with
    | "off" => some 0
    | "error" => some Level.error.detail
    | "warn" => some Level.warn.detail
    | "info" => some Level.info.detail
    | "debug" => some Level.debug.detail
    | "trace" => some Level.trace.detail
    | _ => none

/-- A condition in braces: a name, or a name and a value. What follows a second equals sign is of no
account. -/
def fieldCondition : Reader Condition := do
  char '\x7b'
  let content ← run (fun c => c != '\x7d')
  char '\x7d'
  guardBool !content.isEmpty
  match content.span (fun c => c != '=') with
  | (name, []) => return ⟨some name, false⟩
  | (name, _ :: value) =>
    guardBool (Pattern.isValue (value.takeWhile (fun c => c != '=')))
    return ⟨some name, true⟩

def condition : Reader Condition := do
  char '['
  let span ← run (fun c => c != ']' && c != '\x7b')
  let field ← maybe fieldCondition
  char ']'
  match field with
  | some c => return ⟨c.field, c.forSpans || !span.isEmpty⟩
  | none => return ⟨none, true⟩

def beginsPath (c : Char) : Bool := isAlphanumeric c || c == '-' || c == ':' || c == '_'

def clause : Reader Clause := do
  let path ← run (fun c => c != '=' && c != '[')
  guardBool (path.head?.all beginsPath)
  let condition ← maybe condition
  guardBool (!path.isEmpty || condition.isSome)
  let level ← maybe (do char '='; run (fun _ => true))
  let _ ← run isBlank
  atEnd
  return ⟨path, condition, level⟩

/-- What a clause means. A word by itself is a level if there is one of that name. -/
def Clause.directive? (c : Clause) : Option Directive :=
  let path := if c.path.isEmpty then none else some c.path
  match c.condition, c.level with
  | none, none =>
    match detail? c.path with
    | some n => some { detail := n }
    | none => some { path, detail := allDetail }
  | condition, level =>
    let detail :=
      match level with
      | none => some allDetail
      | some [] => some allDetail
      | some word => detail? word
    detail.map (fun n =>
      { path, field := condition.bind Condition.field,
        forSpans := condition.any Condition.forSpans, detail := n })

/-- The directive that a piece of text writes. Blanks in front belong to its path, which then is the
beginning of none, and leave no room for a level. -/
def directive? (cs : List Char) : Option Directive :=
  match clause (cs.dropWhile isBlank) with
  | none => none
  | some (c, _) =>
    if !cs.head?.any isBlank then c.directive?
    else if c.level.isSome then none
    else some { path := some cs, detail := allDetail }

end TapeMachine.Log
