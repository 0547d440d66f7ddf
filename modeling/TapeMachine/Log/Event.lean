/-! What the program can be made to tell about its work: one line per event, with the level of
detail it belongs to, the part of the program it comes from, a message and named values. -/

namespace TapeMachine.Log

inductive Level where
  | error
  | warn
  | info
  | debug
  | trace
deriving DecidableEq, Repr

/-- How much detail a level asks for; 0 is left for none at all. -/
def Level.detail : Level → Nat
  | .error => 1
  | .warn => 2
  | .info => 3
  | .debug => 4
  | .trace => 5

/-- The name of a level, right-aligned. -/
def Level.label : Level → String
  | .error => "ERROR"
  | .warn => " WARN"
  | .info => " INFO"
  | .debug => "DEBUG"
  | .trace => "TRACE"

inductive Topic where
  | config
  | command
  | jumpTable
  | machine
deriving DecidableEq, Repr

def Topic.path : Topic → String
  | .config => "tapevm::config"
  | .command => "tapevm::commands::run"
  | .jumpTable => "tapevm::jump_table"
  | .machine => "tapevm::machine"

structure Event where
  level : Level
  topic : Topic
  message : String
  values : List (String × String) := []
deriving DecidableEq, Repr

/-- An event as a plain line. -/
def Event.line (e : Event) : String :=
  e.level.label ++ " " ++ e.topic.path ++ ": " ++ e.message
    ++ String.join (e.values.map (fun v => " " ++ v.1 ++ "=" ++ v.2)) ++ "\n"

end TapeMachine.Log
