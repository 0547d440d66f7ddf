import TapeMachine.Device
import TapeMachine.Machine

/-! A machine that is run again and again. Each run starts from a fresh tape, while the device goes
on from where the last run left it. -/

namespace TapeMachine

/-- What a run of a session is bounded by. -/
structure Bounds where
  limit : Option Nat := none
  /-- Whether the device's request to stop is heeded. -/
  cancellable : Bool := false

def Bounds.control (b : Bounds) : Control Device where
  limit := b.limit
  cancelled d := b.cancellable && d.cancelled

structure Session where
  machine : Machine
  mode : Mode := {}
  device : Device := {}

namespace Session

/-- Attaches a device that serves these bytes and starts a new record of the output. The policy for
the end of input belongs to the device, so it is replaced as well. A request to stop stands. -/
def attach (s : Session) (input : List UInt8) (eof : EofPolicy) : Session :=
  { s with
    mode := { s.mode with eof := eof }
    device := (Device.ofBytes input).setCancelled s.device.cancelled }

def withReplies (s : Session) (replies : List Reading) : Session :=
  { s with device := s.device.withReplies replies }

def withReceptions (s : Session) (receptions : List Reception) : Session :=
  { s with device := s.device.withReceptions receptions }

def setEof (s : Session) (eof : EofPolicy) : Session := { s with mode := { s.mode with eof := eof } }

def setWidth (s : Session) (width : CellWidth) : Session :=
  { s with mode := { s.mode with width := width } }

def setCancelled (s : Session) (cancelled : Bool) : Session :=
  { s with device := s.device.setCancelled cancelled }

/-- One run, and the session after it. -/
def run (s : Session) (b : Bounds) (fuel : Nat) : Run Device × Session :=
  let r := s.machine.run s.mode Device.hooks b.control fuel s.device
  (r, { s with device := r.world })

end Session

end TapeMachine
