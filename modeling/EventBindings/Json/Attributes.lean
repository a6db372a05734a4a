import EventBindings.Attribute

namespace EventBindings.Json

/-!
Attributes as a JSON array of objects, indented by two spaces.
-/

/-- A control character by its code unit, in four lower-case digits. -/
def controlEscape (c : Char) : List Char :=
  let digits := Nat.toDigits 16 c.toNat
  ['\\', 'u'] ++ List.replicate (4 - digits.length) '0' ++ digits

/-- A character of a string. Only quotation marks, backslashes and control
characters are escaped. -/
def escapeChar (c : Char) : List Char :=
  match c with
  | '"' => ['\\', '"']
  | '\\' => ['\\', '\\']
  | '\x08' => ['\\', 'b']
  | '\x0c' => ['\\', 'f']
  | '\n' => ['\\', 'n']
  | '\r' => ['\\', 'r']
  | '\t' => ['\\', 't']
  | _ => if c.toNat < 0x20 then controlEscape c else [c]

def stringText (text : String) : String :=
  String.ofList ('"' :: text.toList.flatMap escapeChar ++ ['"'])

def attributeLines (attr : Attribute) : List String :=
  ["  \x7b", "    \"key\": " ++ stringText attr.key ++ ",",
    "    \"value\": " ++ stringText attr.value, "  \x7d"]

/-- The attributes as an array. An array without members stands on one
line. -/
def attributesText : List Attribute → String
  | [] => "[]"
  | attributes =>
      let objects := attributes.map fun attr => String.intercalate "\n" (attributeLines attr)
      "[\n" ++ String.intercalate ",\n" objects ++ "\n]"

end EventBindings.Json
