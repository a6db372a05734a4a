import EventBindings.Text.Blank

namespace EventBindings.Text

/-!
The spacing of a binding expression. A name may hold hyphens, so the arrows
`->` and `=>` are set apart by spaces before an expression is read; all other
blanks only separate words, so any run of them counts as one space.
-/

/-- Puts a space on both sides of each arrow. -/
def padArrows : List Char → List Char
  | '-' :: '>' :: rest => ' ' :: '-' :: '>' :: ' ' :: padArrows rest
  | '=' :: '>' :: rest => ' ' :: '=' :: '>' :: ' ' :: padArrows rest
  | c :: rest => c :: padArrows rest
  | [] => []

/-- The words of the text with its arrows set apart, one space between two
words. -/
def normalizeBlanks (text : List Char) : List Char :=
  [' '].intercalate (words (padArrows text))

/-- The expression in the spacing in which it is read. -/
def normalize (text : String) : String :=
  String.ofList (normalizeBlanks text.toList)

end EventBindings.Text
