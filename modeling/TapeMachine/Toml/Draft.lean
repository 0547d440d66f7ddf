import TapeMachine.Toml.Value

/-! Tables while the document is still being read. TOML lets a table be opened at most once, so a
draft remembers how each table came about: by a header, on the way to the header of a subtable, or
through a dotted key. The rules are these. A key is given one value. A dotted key may pass through
tables that no header has opened, and must end in one that dotted keys made. A header may open a
table that only subtables have brought about, and that table then counts as the last of its parent. -/

namespace TapeMachine.Toml

/-- How a table came about. -/
inductive Origin where
  | header
  | implied
  | dotted
deriving DecidableEq, Repr

inductive Item where
  | value (v : Value)
  | table (origin : Origin) (entries : List (String × Item))
  /-- The tables that headers with double brackets have added under one name. -/
  | tables (elements : List (List (String × Item)))

abbrev Entries := List (String × Item)

/-- A key with the keys of the tables that lead to it. -/
structure KeyPath where
  parents : List String
  name : String
deriving DecidableEq, Repr

def KeyPath.toList (k : KeyPath) : List String := k.parents ++ [k.name]

namespace Entries

/-- Replaces the item under a key, or adds one at the end. -/
def alter? (key : String) (f : Option Item → Option Item) : Entries → Option Entries
  | [] => (f none).map (fun item => [(key, item)])
  | (k, item) :: rest =>
    if k = key then (f (some item)).map (fun item => (k, item) :: rest)
    else (alter? key f rest).map (fun rest => (k, item) :: rest)

/-- Gives a key its value, making the tables of its dotted path where they are missing. -/
def assign? (name : String) (v : Value) : List String → Entries → Option Entries
  | [], es =>
    es.alter? name fun
      | none => some (.value v)
      | some _ => none
  | key :: path, es =>
    es.alter? key fun
      | none => (assign? name v path []).map (Item.table .dotted)
      | some (.table .dotted sub) => (assign? name v path sub).map (Item.table .dotted)
      | some (.table .implied sub) =>
        if path.isEmpty then none else (assign? name v path sub).map (Item.table .implied)
      | some (.tables elements) =>
        match elements.getLast? with
        | none => none
        | some last =>
          if path.isEmpty then none
          else (assign? name v path last).map (fun last => .tables (elements.dropLast ++ [last]))
      | some (.table .header _) => none
      | some (.value _) => none

/-- Works on the table that a header's path leads to. A name that stands for several tables leads to
the last of them. -/
def beneath? (f : Entries → Option Entries) : List String → Entries → Option Entries
  | [], es => f es
  | key :: path, es =>
    es.alter? key fun
      | none => (beneath? f path []).map (Item.table .implied)
      | some (.table origin sub) => (beneath? f path sub).map (Item.table origin)
      | some (.tables elements) =>
        match elements.getLast? with
        | none => none
        | some last => (beneath? f path last).map (fun last => .tables (elements.dropLast ++ [last]))
      | some (.value _) => none

/-- Opens the table of a header. -/
def openTable? (name : String) (es : Entries) : Option Entries :=
  match es.find? (fun e => e.1 = name) with
  | none => some (es ++ [(name, .table .header [])])
  | some (_, .table .implied sub) =>
    some (es.filter (fun e => e.1 ≠ name) ++ [(name, .table .header sub)])
  | some _ => none

/-- Adds the table of a header with double brackets. -/
def addElement? (name : String) (es : Entries) : Option Entries :=
  es.alter? name fun
    | none => some (.tables [[]])
    | some (.tables elements) => some (.tables (elements ++ [[]]))
    | some _ => none

end Entries

mutual

def Item.toValue : Item → Value
  | .value v => v
  | .table _ es => .table (tableOf es)
  | .tables elements => .array (arrayOf elements)

/-- The finished table of a draft. -/
def tableOf : List (String × Item) → Table
  | [] => []
  | (key, item) :: rest => (key, item.toValue) :: tableOf rest

def arrayOf : List (List (String × Item)) → List Value
  | [] => []
  | es :: rest => .table (tableOf es) :: arrayOf rest

end

/-- A document read so far: its tables, and the path of the one that assignments go to. -/
structure Draft where
  root : Entries := []
  current : List String := []

inductive Statement where
  | assign (key : KeyPath) (v : Value)
  | header (key : KeyPath)
  | elementHeader (key : KeyPath)

namespace Draft

def add? (d : Draft) : Statement → Option Draft
  | .assign key v =>
    (d.root.beneath? (Entries.assign? key.name v key.parents) d.current).map
      (fun root => { d with root := root })
  | .header key =>
    (d.root.beneath? (Entries.openTable? key.name) key.parents).map
      (fun root => { root := root, current := key.toList })
  | .elementHeader key =>
    (d.root.beneath? (Entries.addElement? key.name) key.parents).map
      (fun root => { root := root, current := key.toList })

end Draft

/-- The table that the statements of a document make, unless they contradict each other. -/
def Table.ofStatements? (statements : List Statement) : Option Table :=
  (statements.foldlM Draft.add? {}).map (fun d => tableOf d.root)

/-- The table that the assignments of an inline table make. -/
def Table.ofAssignments? (assignments : List (KeyPath × Value)) : Option Table :=
  (assignments.foldlM (fun es a => Entries.assign? a.1.name a.2 a.1.parents es) []).map tableOf

end TapeMachine.Toml
