import EventBindings.Event
import EventBindings.Text.CodePoints

namespace EventBindings

/-!
The tokens of binding expressions and binding keys.
-/

/-- The text that calls a built-in action of the client library. -/
def callText (name : String) : String :=
  "$fir." ++ name ++ "()"

inductive Token where
  | identifier (name : String)
  /-- An outcome after a colon, as in `:ok`. -/
  | state (outcome : EventState)
  /-- A name after a dot, as in `.debounce`. -/
  | modifier (name : String)
  | arrow
  | doubleArrow
  | doubleColon
  /-- A call of a built-in action, as in `$fir.replace()`. -/
  | call (name : String)
  | comma
  | semicolon
  | openBracket
  | closeBracket
  deriving DecidableEq, Repr

namespace Token

def spelling : Token → String
  | .identifier name => name
  | .state outcome => ":" ++ outcome.name
  | .modifier name => "." ++ name
  | .arrow => "->"
  | .doubleArrow => "=>"
  | .doubleColon => "::"
  | .call name => callText name
  | .comma => ","
  | .semicolon => ";"
  | .openBracket => "["
  | .closeBracket => "]"

def describe : Token → String
  | .identifier name => s!"identifier '{name}'"
  | .state outcome => s!"state ':{outcome.name}'"
  | .modifier name => s!"modifier '.{name}'"
  | .call name => s!"action '{callText name}'"
  | token => s!"'{token.spelling}'"

def width (token : Token) : Nat :=
  Text.byteLength token.spelling.toList

end Token

/-- A token and the offset at which it begins. -/
structure PlacedToken where
  token : Token
  offset : Nat
  deriving DecidableEq, Repr

end EventBindings
