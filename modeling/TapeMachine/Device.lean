import TapeMachine.Hooks

/-! A world for the hooks whose whole behaviour is laid out in advance: what the coming reads answer,
what happens to the coming bytes, and a request to stop that an output may raise. It records the
bytes it took and how often it was asked for one. -/

namespace TapeMachine

/-- What happens to one byte that is handed over. -/
inductive Reception where
  | accept
  | refuse (reason : String)
  | acceptAndCancel
deriving DecidableEq, Repr

structure Device where
  replies : List Reading := []
  /-- The answer to every read once the replies are used up. -/
  afterwards : Reading := .endOfInput
  reads : Nat := 0
  /-- Bytes beyond these are accepted. -/
  receptions : List Reception := []
  written : Array UInt8 := #[]
  cancelled : Bool := false

namespace Device

def read (d : Device) : Reading × Device :=
  match d.replies with
  | [] => (d.afterwards, { d with reads := d.reads + 1 })
  | reply :: replies => (reply, { d with replies := replies, reads := d.reads + 1 })

def write (b : UInt8) (d : Device) : Writing × Device :=
  match d.receptions with
  | [] => (.accepted, { d with written := d.written.push b })
  | .accept :: rest => (.accepted, { d with receptions := rest, written := d.written.push b })
  | .refuse reason :: rest => (.failure reason, { d with receptions := rest })
  | .acceptAndCancel :: rest =>
    (.accepted, { d with receptions := rest, written := d.written.push b, cancelled := true })

def hooks : Hooks Device := ⟨read, write⟩

/-- Serves these bytes and then the end of input, and accepts every byte. -/
def ofBytes (input : List UInt8) : Device := { replies := input.map .byte }

/-- Fails every read for the same reason. -/
def unreadable (reason : String) : Device := { afterwards := .failure reason }

/-- Lays out the coming reads anew; the output side stays. -/
def withReplies (d : Device) (replies : List Reading) : Device :=
  { d with replies := replies, afterwards := .endOfInput, reads := 0 }

/-- Lays out the coming output anew, starting a new record; the input side stays. -/
def withReceptions (d : Device) (receptions : List Reception) : Device :=
  { d with receptions := receptions, written := #[] }

def setCancelled (d : Device) (cancelled : Bool) : Device := { d with cancelled := cancelled }

end Device

end TapeMachine
