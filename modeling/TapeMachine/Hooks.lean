/-! The two hooks that connect a program to the outside: one asked for a byte by each input
instruction, one handed a byte by each output instruction. A hook answers from a world of any type
and leaves a new one. -/

namespace TapeMachine

/-- What an input instruction stores once the input has ended. -/
inductive EofPolicy where
  | zero
  | unchanged
  | error
deriving DecidableEq, Repr

inductive Reading where
  | byte (value : UInt8)
  | endOfInput
  | failure (reason : String)
deriving DecidableEq, Repr

inductive Writing where
  | accepted
  | failure (reason : String)
deriving DecidableEq, Repr

structure Hooks (World : Type) where
  read : World → Reading × World
  write : UInt8 → World → Writing × World

end TapeMachine
