import TapeMachine.Log.Directive

/-! Which events are written. A filter is a list of directives separated by commas. Of the directives
that mean an event the one with the longest path counts, then one that asks for a value before one that
asks for none, and of equal ones the last. A filter with a bad directive selects nothing. -/

namespace TapeMachine.Log

abbrev Filter := List Directive

/-- The message is a value of an event as well. -/
def Event.names (e : Event) : List String := "message" :: e.values.map (fun v => v.1)

namespace Directive

def means (d : Directive) (e : Event) : Bool :=
  !d.forSpans && d.path.all (fun start => start.isPrefixOf e.topic.path.toList)
    && d.field.all (fun name => e.names.any (fun n => n.toList == name))

/-- Asks for no less: a longer path, or with paths of one length for a value of no lesser name. -/
def isAsSpecific (d e : Directive) : Bool :=
  let length (d : Directive) : Nat := (d.path.map (fun start => start.length + 1)).getD 0
  length e < length d || (length e == length d && !(d.field.getD []).lex (e.field.getD []) (fun a b => a < b))

end Directive

namespace Filter

/-- The directives of a text; empty ones between commas are left out. -/
def ofText (s : String) : Filter :=
  (((s.toList.splitOn ',').filter (fun piece => !piece.isEmpty)).mapM directive?).getD []

def deciding? (f : Filter) (e : Event) : Option Directive :=
  (f.filter (fun d => d.means e)).foldl (fun best d =>
    if best.all (fun b => d.isAsSpecific b) then some d else best) none

def admits (f : Filter) (e : Event) : Bool :=
  (f.deciding? e).any (fun d => e.level.detail ≤ d.detail)

def render (f : Filter) (layout : Nat → Event → String) (events : List Event) : String :=
  String.join ((events.filter f.admits).mapIdx layout)

end Filter

end TapeMachine.Log
