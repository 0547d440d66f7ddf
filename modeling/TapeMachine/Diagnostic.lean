import TapeMachine.Program
import TapeMachine.Fault
import TapeMachine.Text.Blank
import TapeMachine.Text.Slice

/-! Reports for people: a line of text with the name of the reporting program in front, and under a
fault that belongs to an instruction an excerpt of the source with a caret below the instruction. -/

namespace TapeMachine.Diagnostic

def margin : Nat := 32

/-- A character as an excerpt shows it: every blank is a space, so that the caret below stands where it
should. -/
def shown (c : Char) : Char := if Text.isBlank c then ' ' else c

/-- The part of a text around an offset, cut out by its positions in bytes. -/
def stretch? (source : String) (offset : Nat) : Option String :=
  Text.slice? source (Text.byteIndex source (offset - margin))
    (Text.byteIndex source (min (offset + margin + 1) source.length))

theorem stretch?_eq (source : String) (offset : Nat) : stretch? source offset =
    some (String.ofList ((source.toList.take (offset + margin + 1)).drop (offset - margin))) := by
  rw [stretch?, Text.byteIndex_min, Text.slice?_byteIndex source (by omega)]

theorem isSome_stretch? (source : String) (offset : Nat) : (stretch? source offset).isSome := by
  rw [stretch?_eq]
  rfl

/-- Two indented lines: the part of a text around an offset, and a caret under the offset. -/
def excerpt (source : String) (offset : Nat) : String :=
  let stretch := (stretch? source offset).get (isSome_stretch? source offset)
  "  " ++ stretch.map shown ++ "\n  "
    ++ String.ofList (List.replicate (offset - (offset - margin)) ' ') ++ "^\n"

def excerptChars (cs : List Char) (offset : Nat) : List Char :=
  ((cs.take (offset + margin + 1)).drop (offset - margin)).map shown

theorem toList_excerpt (source : String) (offset : Nat) :
    (excerpt source offset).toList = ' ' :: ' ' :: excerptChars source.toList offset ++
      '\n' :: ' ' :: ' ' :: List.replicate (min offset margin) ' ' ++ ['^', '\n'] := by
  have hcaret : offset - (offset - margin) = min offset margin := by omega
  simp [excerpt, excerptChars, stretch?_eq, hcaret]

def line (reporter : Option String) (message : String) : String :=
  match reporter with
  | some name => name ++ ": " ++ message ++ "\n"
  | none => message ++ "\n"

/-- A fault on a line of its own, with an excerpt if it belongs to an instruction of the source. -/
def fault (reporter : Option String) (source : String) (f : Fault) : String :=
  line reporter f.message ++
    match f.position?.bind (fun position => (Program.offsets source)[position]?) with
    | some offset => excerpt source offset
    | none => ""

end TapeMachine.Diagnostic
