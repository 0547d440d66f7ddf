/-! What ends a run other than reaching the end of the program, and the sentence that reports it.
A fault that belongs to one instruction knows the position of that instruction. -/

namespace TapeMachine

inductive Bracket where
  | opening
  | closing
deriving DecidableEq, Repr

def Bracket.symbol : Bracket → Char
  | .opening => '['
  | .closing => ']'

inductive Fault where
  | unmatchedBracket (position : Nat) (bracket : Bracket)
  | inputExhausted (position : Nat)
  | io (position : Nat) (reason : String)
  | stepLimitExceeded (limit : Nat)
  | cancelled
deriving DecidableEq, Repr

namespace Fault

def position? : Fault → Option Nat
  | unmatchedBracket position _ => some position
  | inputExhausted position => some position
  | io position _ => some position
  | stepLimitExceeded _ => none
  | cancelled => none

def message : Fault → String
  | unmatchedBracket position bracket =>
    "Malformed program: unmatched bracket '" ++ bracket.symbol.toString ++ "' at instruction "
      ++ toString position
  | inputExhausted position => "Input exhausted at instruction " ++ toString position
  | io position reason => "I/O error at instruction " ++ toString position ++ ": " ++ reason
  | stepLimitExceeded limit => "Execution aborted: step limit exceeded (" ++ toString limit ++ ")"
  | cancelled => "Execution aborted: cancelled"

end Fault

end TapeMachine
