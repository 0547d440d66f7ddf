import TapeMachine.Engine
import TapeMachine.Machine
import TapeMachine.Number.Shortest
import TapeMachine.Text.Quoted
import TapeMachine.Toml.Document

/-! Settings read from a TOML document with two sections: `machine` with `cell_width` and `eof`, and
`limits` with `timeout_ms` and `max_steps`. What is not given keeps its default. A section may also be
an array of its values in that order, and a choice may also be a table of one key that holds nothing.
Entries are looked at in the order of the document, and the first bad one is reported with its place. -/

namespace TapeMachine

structure Limits where
  timeoutMs : Option Nat := none
  maxSteps : Option Nat := none
deriving DecidableEq, Repr

structure Config where
  machine : Mode := {}
  limits : Limits := {}
deriving DecidableEq, Repr

namespace Config

/-- What can be wrong with a key or a value. -/
inductive Problem where
  | unknownField (name : String) (known : List String)
  | unknownVariant (name : String) (known : List String)
  | invalidType (found expected : String)
  | invalidValue (found expected : String)
  /-- A choice is neither a string nor a table. -/
  | noChoice (found : String)
  /-- A choice is a table with no key or with several. -/
  | keyCount (count : Nat)
  /-- Under the key that makes a choice there is something other than an empty table or array. -/
  | heldContent (found : String)
deriving DecidableEq, Repr

/-- A list of names to choose from. -/
def alternatives (names : List String) : String :=
  match names.map (fun name => "`" ++ name ++ "`") with
  | [a, b] => a ++ " or " ++ b
  | [a] => a
  | names => "one of " ++ ", ".intercalate names

/-- The sentence about a problem, as far as it is one of the sections and not of the form of a choice. -/
def Problem.message? : Problem → Option String
  | unknownField name known => some ("unknown field `" ++ name ++ "`, expected " ++ alternatives known)
  | unknownVariant name known => some ("unknown variant `" ++ name ++ "`, expected " ++ alternatives known)
  | invalidType found expected => some ("invalid type: " ++ found ++ ", expected " ++ expected)
  | invalidValue found expected => some ("invalid value: " ++ found ++ ", expected " ++ expected)
  | noChoice _ => none
  | keyCount _ => none
  | heldContent _ => none

/-- A step on the way to a key or a value: under this key, or at this place of an array. -/
inductive Place where
  | key (name : String)
  | item (index : Nat)
deriving DecidableEq, Repr

/-- Where in a document something is wrong, and what. -/
structure Complaint where
  path : List Place := []
  problem : Problem
deriving DecidableEq, Repr

/-- The same complaint, seen from one step further up. -/
def Complaint.under (place : Place) (c : Complaint) : Complaint := { c with path := place :: c.path }

/-- A value as complaints name it. -/
def describe : Toml.Value → String
  | .string s => "string " ++ Text.quoted s
  | .integer n => "integer `" ++ toString n ++ "`"
  | .float x => "floating point `" ++ Number.floatText x ++ "`"
  | .boolean b => "boolean `" ++ toString b ++ "`"
  | .moment _ => "map"
  | .array _ => "sequence"
  | .table _ => "map"

/-- A field of a section: its key, and how a value is put into it. -/
structure Field (α : Type) where
  key : String
  set : Toml.Value → α → Except Complaint α

/-- The only key of a date or time when it is looked at as a section. -/
def momentKey : String := "$__toml_private_datetime"

def setEntry {α : Type} (fields : List (Field α)) (a : α) (entry : String × Toml.Value) :
    Except Complaint α :=
  match fields.find? (fun f => f.key = entry.1) with
  | some f => (f.set entry.2 a).mapError (Complaint.under (.key entry.1))
  | none => .error ⟨[.key entry.1], .unknownField entry.1 (fields.map Field.key)⟩

/-- Sets a field from the item at its place in an array. -/
def setItem {α : Type} (a : α) (item : (Field α × Toml.Value) × Nat) : Except Complaint α :=
  (item.1.1.set item.1.2 a).mapError (Complaint.under (.item item.2))

def readSection {α : Type} (name : String) (fields : List (Field α)) (default : α) :
    Toml.Value → Except Complaint α
  | .table entries => entries.foldlM (setEntry fields) default
  | .array items => (fields.zip items).zipIdx.foldlM setItem default
  | .moment _ => .error ⟨[.key momentKey], .unknownField momentKey (fields.map Field.key)⟩
  | v => .error ⟨[], .invalidType (describe v) ("struct " ++ name)⟩

def choose {α : Type} (choices : List (String × α)) (name : String) : Except Problem α :=
  match choices.find? (fun c => c.1 = name) with
  | some c => .ok c.2
  | none => .error (.unknownVariant name (choices.map (fun c => c.1)))

def readChoice {α : Type} (choices : List (String × α)) : Toml.Value → Except Complaint α
  | .string name => (choose choices name).mapError (fun problem => ⟨[], problem⟩)
  | .table [(name, content)] =>
    match choose choices name, content with
    | .error problem, _ => .error ⟨[.key name], problem⟩
    | .ok a, .table [] => .ok a
    | .ok a, .array [] => .ok a
    | .ok _, content => .error ⟨[.key name], .heldContent (describe content)⟩
  | .table entries => .error ⟨[], .keyCount entries.length⟩
  | v => .error ⟨[], .noChoice (describe v)⟩

/-- Reads a count. Counts lie below `2 ^ 64`, as every integer of a document that is not negative
does. -/
def readCount : Toml.Value → Except Complaint Nat
  | .integer n => if n < 0 then .error ⟨[], .invalidValue (describe (.integer n)) "u64"⟩ else .ok n.toNat
  | v => .error ⟨[], .invalidType (describe v) "u64"⟩

def widthChoices : List (String × CellWidth) := [("byte", .byte), ("unbounded", .unbounded)]

def eofChoices : List (String × EofPolicy) :=
  [("zero", .zero), ("unchanged", .unchanged), ("error", .error)]

def machineFields : List (Field Mode) :=
  [⟨"cell_width", fun v m => (readChoice widthChoices v).map (fun w => { m with width := w })⟩,
   ⟨"eof", fun v m => (readChoice eofChoices v).map (fun p => { m with eof := p })⟩]

def limitFields : List (Field Limits) :=
  [⟨"timeout_ms", fun v l => (readCount v).map (fun n => { l with timeoutMs := some n })⟩,
   ⟨"max_steps", fun v l => (readCount v).map (fun n => { l with maxSteps := some n })⟩]

def sections : List (Field Config) :=
  [⟨"machine", fun v c =>
      (readSection "MachineConfig" machineFields {} v).map (fun m => { c with machine := m })⟩,
   ⟨"limits", fun v c =>
      (readSection "Limits" limitFields {} v).map (fun l => { c with limits := l })⟩]

def ofTable (t : Toml.Table) : Except Complaint Config := t.foldlM (setEntry sections) {}

/-- Why a text gives no configuration: there is something wrong in the document, or it is none at all. -/
structure Rejection where
  document : String
  complaint? : Option Complaint
deriving DecidableEq, Repr

def Rejection.message? (r : Rejection) : Option String := r.complaint?.bind (fun c => c.problem.message?)

/-- A rejection on one line. -/
def Rejection.summary (r : Rejection) : String :=
  "TOML parse error" ++ (r.message?.map (fun message => ": " ++ message)).getD ""

/-- How documents are read, and what is said about one that is rejected. -/
structure Reader where
  table? : String → Option Toml.Table := Toml.Table.ofText?
  words : Rejection → String := Rejection.summary

def ofText (reader : Reader) (s : String) : Except Rejection Config :=
  match reader.table? s with
  | some t => (ofTable t).mapError (fun c => ⟨s, some c⟩)
  | none => .error ⟨s, none⟩

end Config

end TapeMachine
