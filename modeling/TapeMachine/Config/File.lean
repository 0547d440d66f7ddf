import TapeMachine.Surroundings

/-! Where the settings come from: the file that `TAPEVM_CONFIG` names, which then has to be there, or
else `tapevm.toml` in the user's configuration directory, which may be missing. -/

namespace TapeMachine.Config

inductive FileFault where
  | unreadable (path reason : String)
  | invalid (path : String) (rejection : Rejection)
deriving DecidableEq, Repr

def FileFault.message (reader : Reader) : FileFault → String
  | unreadable path reason => "failed to read config file " ++ path ++ ": " ++ reason
  | invalid path rejection => "invalid config file " ++ path ++ ": " ++ reader.words rejection

def defaultPath? (p : Platform) (env : String → Option String) : Option String :=
  (p.configHome env).map (fun home => pathIn home "tapevm.toml")

def ofFile (path : String) (state : FileState) (reader : Reader := {}) : Except FileFault Config :=
  match state.text with
  | .error reason => .error (.unreadable path reason)
  | .ok text => (ofText reader text).mapError (.invalid path)

/-- Where a configuration was found, or that the defaults are used. -/
inductive Origin where
  | file (path : String)
  | missing (path : String)
  | none
deriving DecidableEq, Repr

def load (s : Surroundings) : Except FileFault (Config × Origin) :=
  match s.env "TAPEVM_CONFIG" with
  | some path => (ofFile path (s.file path) s.reader).map (fun c => (c, .file path))
  | none =>
    match defaultPath? s.toPlatform s.env with
    | none => .ok ({}, .none)
    | some path =>
      if (s.file path).exists then (ofFile path (s.file path) s.reader).map (fun c => (c, .file path))
      else .ok ({}, .missing path)

end TapeMachine.Config
