import TapeMachine.Text.Hidden

/-! Texts in double quotes. A quote and a backslash stand behind a backslash, the common control
characters are letters behind one, and other characters that cannot be seen are written as their code
points in hexadecimal. -/

namespace TapeMachine.Text

def quotedChar (c : Char) : List Char :=
  match c with
  | '"' => ['\\', '"']
  | '\\' => ['\\', '\\']
  | '\x00' => ['\\', '0']
  | '\t' => ['\\', 't']
  | '\n' => ['\\', 'n']
  | '\r' => ['\\', 'r']
  | c =>
    if isHidden c then ['\\', 'u', '\x7b'] ++ Nat.toDigits 16 c.toNat ++ ['\x7d'] else [c]

def quoted (s : String) : String :=
  String.ofList ('"' :: s.toList.flatMap quotedChar ++ ['"'])

end TapeMachine.Text
