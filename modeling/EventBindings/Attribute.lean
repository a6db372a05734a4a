namespace EventBindings

/-!
Attributes of an element, and their text, one on a line.
-/

structure Attribute where
  key : String
  value : String
  deriving DecidableEq, Repr

namespace Attribute

/-- The attribute as text. Nothing in the value is escaped. -/
def line (attr : Attribute) : String :=
  attr.key ++ "=\"" ++ attr.value ++ "\""

end Attribute

def renderLines (attributes : List Attribute) : String :=
  String.intercalate "\n" (attributes.map Attribute.line)

end EventBindings
