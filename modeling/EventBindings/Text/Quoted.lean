import EventBindings.Text.DefaultIgnorable
import EventBindings.Text.GraphemeExtend
import EventBindings.Text.NonPrinting

namespace EventBindings.Text

/-!
Text in quotation marks, for messages. Every character shows: those without a
visible form of their own are written by their code points.
-/

/-- The code point in lower-case hexadecimal digits, in braces. -/
def codePointEscape (c : Char) : List Char :=
  ['\\', 'u', '{'] ++ Nat.toDigits 16 c.toNat ++ ['}']

/-- Whether the character is shown by itself, as a visible form or, for the
space, as a gap. -/
def isVisible (c : Char) : Bool :=
  !(isNonPrinting c || isDefaultIgnorable c || isAttached c)

def quoteChar (c : Char) : List Char :=
  match c with
  | '"' => ['\\', '"']
  | '\\' => ['\\', '\\']
  | '\t' => ['\\', 't']
  | '\r' => ['\\', 'r']
  | '\n' => ['\\', 'n']
  | '\x00' => ['\\', '0']
  | _ => if isVisible c then [c] else codePointEscape c

def quote (text : String) : String :=
  String.ofList ('"' :: text.toList.flatMap quoteChar ++ ['"'])

end EventBindings.Text
