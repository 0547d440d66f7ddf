import TapeMachine.Machine
import TapeMachine.Number.Count

/-! The command line: `run` and `check` with their options, and the requests for information. Options
and parts of the program text may be mixed; after `--` everything is program text. An option takes its
value from the next argument or, behind an equals sign, from its own. Nothing else may begin with a
dash, except a single dash, which is program text. Arguments are looked at in their order, and a
request for help makes the later ones irrelevant. -/

namespace TapeMachine.Cli

/-- Where the program text comes from. -/
inductive Source where
  | file (path : String)
  | code (text : String)
  | stdin
deriving DecidableEq, Repr

structure RunOptions where
  source : Source
  timeoutMs : Option Nat := none
  maxSteps : Option Nat := none
  eof : Option EofPolicy := none
  width : Option CellWidth := none
deriving DecidableEq, Repr

inductive Command where
  | version
  | help
  | check (source : Source)
  | run (options : RunOptions)
deriving DecidableEq, Repr

inductive Parameter where
  | file
  | timeout
  | maxSteps
  | eof
  | cellWidth
deriving DecidableEq, Repr

def Parameter.name : Parameter → String
  | .file => "file"
  | .timeout => "timeout"
  | .maxSteps => "max-steps"
  | .eof => "eof"
  | .cellWidth => "cell-width"

/-- What is wrong with a command line. -/
inductive UsageFault where
  | noCommand
  | unknownArgument (argument : String)
  | missingValue (p : Parameter)
  | invalidValue (p : Parameter) (value : String)
  | repeated (p : Parameter)
  | fileWithCode
deriving DecidableEq, Repr

def UsageFault.message : UsageFault → String
  | noCommand => "a command is required"
  | unknownArgument argument => "unexpected argument '" ++ argument ++ "'"
  | missingValue p => "a value is required for '--" ++ p.name ++ "'"
  | invalidValue p value => "invalid value '" ++ value ++ "' for '--" ++ p.name ++ "'"
  | repeated p => "the option '--" ++ p.name ++ "' cannot be used twice"
  | fileWithCode => "the option '--file' cannot be used with program text"

def checkParameters : List Parameter := [.file]

def runParameters : List Parameter := [.file, .timeout, .maxSteps, .eof, .cellWidth]

/-- What one argument is, taken by itself. -/
inductive Argument where
  /-- An option whose value is the next argument. -/
  | pending (p : Parameter)
  | option (p : Parameter) (value : String)
  | text (part : String)
  | help
  | endOfOptions
  | unknown
deriving DecidableEq, Repr

/-- Reads an argument of a command that has these parameters. -/
def Argument.ofString (parameters : List Parameter) (s : String) : Argument :=
  match s.toList with
  | ['-'] => .text s
  | ['-', '-'] => .endOfOptions
  | '-' :: '-' :: long =>
    if long = "help".toList then .help
    else
      let (name, value) := long.span (fun c => c != '=')
      match parameters.find? (fun p => p.name.toList = name), value with
      | some p, [] => .pending p
      | some p, _ :: value => .option p (String.ofList value)
      | none, _ => .unknown
  | ['-', 'f'] => .pending .file
  | '-' :: 'f' :: '=' :: value => .option .file (String.ofList value)
  | '-' :: 'f' :: value => .option .file (String.ofList value)
  | '-' :: 'h' :: _ => .help
  | '-' :: _ => .unknown
  | _ => .text s

/-- Whether an argument can be the value of the option before it. -/
def isValue (s : String) : Bool :=
  match s.toList with
  | ['-'] => true
  | '-' :: _ => false
  | _ => true

/-- The options and the program text of a command line, up to a request for help. -/
structure Split where
  options : List (Parameter × String) := []
  parts : List String := []
  help : Bool := false
deriving DecidableEq, Repr

namespace Split

def addOption (p : Parameter) (value : String) (s : Split) : Split :=
  { s with options := (p, value) :: s.options }

def addPart (part : String) (s : Split) : Split := { s with parts := part :: s.parts }

def ofArguments (parameters : List Parameter) : List String → Except UsageFault Split
  | [] => .ok {}
  | argument :: rest =>
    match Argument.ofString parameters argument, rest with
    | .endOfOptions, rest => .ok { parts := rest }
    | .help, _ => .ok { help := true }
    | .unknown, _ => .error (.unknownArgument argument)
    | .pending p, [] => .error (.missingValue p)
    | .pending p, value :: rest =>
      if isValue value then (ofArguments parameters rest).map (addOption p value)
      else .error (.missingValue p)
    | .option p value, rest => (ofArguments parameters rest).map (addOption p value)
    | .text part, rest => (ofArguments parameters rest).map (addPart part)

/-- The value of a parameter as `read` understands it. A parameter may be given once only. -/
def value? {α : Type} (s : Split) (p : Parameter) (read : String → Option α) :
    Except UsageFault (Option α) :=
  match s.options.filter (fun o => o.1 = p) with
  | [] => .ok none
  | [(_, value)] =>
    match read value with
    | some a => .ok (some a)
    | none => .error (.invalidValue p value)
  | _ => .error (.repeated p)

/-- The source that a file and program text make together; only one of them may be given. -/
def source (s : Split) (file : Option String) : Except UsageFault Source :=
  match file, s.parts with
  | some path, [] => .ok (.file path)
  | some _, _ :: _ => .error .fileWithCode
  | none, [] => .ok .stdin
  | none, parts => .ok (.code (String.join parts))

end Split

def pathOfName? (name : String) : Option String := if name.isEmpty then none else some name

def eofOfName? : String → Option EofPolicy
  | "zero" => some .zero
  | "unchanged" => some .unchanged
  | "error" => some .error
  | _ => none

def widthOfName? : String → Option CellWidth
  | "byte" => some .byte
  | "unbounded" => some .unbounded
  | _ => none

namespace Command

def ofCheckSplit (s : Split) : Except UsageFault Command := do
  let file ← s.value? .file pathOfName?
  if s.help then return .help
  return .check (← s.source file)

def ofRunSplit (s : Split) : Except UsageFault Command := do
  let file ← s.value? .file pathOfName?
  let timeoutMs ← s.value? .timeout Number.count?
  let maxSteps ← s.value? .maxSteps Number.count?
  let eof ← s.value? .eof eofOfName?
  let width ← s.value? .cellWidth widthOfName?
  if s.help then return .help
  return .run { source := ← s.source file, timeoutMs, maxSteps, eof, width }

/-- A request for help may name a command that the help is about. -/
def ofHelp : List String → Except UsageFault Command
  | [] => .ok .help
  | [topic] =>
    if topic = "run" ∨ topic = "check" ∨ topic = "help" then .ok .help
    else .error (.unknownArgument topic)
  | _ :: argument :: _ => .error (.unknownArgument argument)

/-- The command that the arguments ask for, if they are used as they should be. -/
def ofArguments : List String → Except UsageFault Command
  | [] => .error .noCommand
  | "run" :: arguments =>
    match Split.ofArguments runParameters arguments with
    | .error fault => .error fault
    | .ok s => ofRunSplit s
  | "check" :: arguments =>
    match Split.ofArguments checkParameters arguments with
    | .error fault => .error fault
    | .ok s => ofCheckSplit s
  | "help" :: arguments => ofHelp arguments
  | "--help" :: _ => .ok .help
  | "--version" :: _ => .ok .version
  | argument :: _ =>
    match argument.toList with
    | '-' :: 'h' :: _ => .ok .help
    | '-' :: 'V' :: _ => .ok .version
    | _ => .error (.unknownArgument argument)

end Command

end TapeMachine.Cli
