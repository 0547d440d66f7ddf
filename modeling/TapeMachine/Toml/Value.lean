/-! What a TOML document holds. A table keeps its keys in the order in which they stand in the text,
and no key occurs twice. -/

namespace TapeMachine.Toml

inductive Value where
  | string (s : String)
  | integer (n : Int)
  | float (x : Float)
  | boolean (b : Bool)
  /-- A date, a time or both, as written. -/
  | moment (written : String)
  | array (items : List Value)
  | table (entries : List (String × Value))

abbrev Table := List (String × Value)

end TapeMachine.Toml
