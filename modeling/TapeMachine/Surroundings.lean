import TapeMachine.Config
import TapeMachine.Device
import TapeMachine.Log.Event

/-! What a command finds around it: environment variables, files by their paths, standard input, and a
platform with habits of its own. -/

namespace TapeMachine

/-- What is found at a path. -/
inductive FileState where
  | holds (bytes : ByteArray)
  /-- Something is there, but its contents cannot be had. -/
  | unreadable (reason : String)
  | absent (reason : String)

def FileState.missing : FileState := .absent "No such file or directory (os error 2)"

inductive Stdin where
  | bytes (input : ByteArray)
  | unreadable (reason : String)

/-- The path of something in a directory. -/
def pathIn (directory name : String) : String :=
  if directory.isEmpty || directory.toList.getLast? == some '/' then directory ++ name
  else directory ++ "/" ++ name

/-- What the environment says about the directory for configuration files. -/
def xdgConfigHome (env : String → Option String) : Option String :=
  match env "XDG_CONFIG_HOME" with
  | some directory => some directory
  | none => (env "HOME").map (fun home => pathIn home ".config")

/-- What a command leaves to others: where configuration is kept, how its documents are read, and how
lines of the log and the name in front of a message look. -/
structure Platform where
  configHome : (String → Option String) → Option String := xdgConfigHome
  reader : Config.Reader := {}
  /-- The line for an event, which may depend on the lines before it, as the time does. -/
  layout : Nat → Log.Event → String := fun _ e => e.line
  paint : String → String := id

structure Surroundings extends Platform where
  env : String → Option String
  file : String → FileState
  stdin : Stdin

/-- Bytes as text, which has to be UTF-8. -/
def textOfBytes (bytes : ByteArray) : Except String String :=
  match String.fromUTF8? bytes with
  | some text => .ok text
  | none => .error "stream did not contain valid UTF-8"

theorem textOfBytes_toUTF8 (s : String) : textOfBytes s.toUTF8 = .ok s := by
  have h : String.fromUTF8? s.toUTF8 = some s := by
    unfold String.fromUTF8?
    rw [String.toUTF8_eq_toByteArray, dif_pos s.isValidUTF8]
    rfl
  rw [textOfBytes, h]

def FileState.text : FileState → Except String String
  | .holds bytes => textOfBytes bytes
  | .unreadable reason => .error reason
  | .absent reason => .error reason

def FileState.exists : FileState → Bool
  | .absent _ => false
  | _ => true

/-- Reads standard input to its end, where it then stands. -/
def Stdin.readToEnd : Stdin → Except String String × Stdin
  | .bytes input => (textOfBytes input, .bytes .empty)
  | .unreadable reason => (.error reason, .unreadable reason)

/-- A device that reads from standard input. -/
def Stdin.device : Stdin → Device
  | .bytes input => Device.ofBytes input.toList
  | .unreadable reason => Device.unreadable reason

theorem Stdin.device_empty : (Stdin.bytes .empty).device = {} := by
  simp [device, Device.ofBytes, ByteArray.toList, ByteArray.toList.loop]

end TapeMachine
