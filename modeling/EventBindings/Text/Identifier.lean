import EventBindings.Text.CodePoints

namespace EventBindings.Text

/-!
Identifiers: an ASCII letter or an underscore, then ASCII letters, digits,
underscores and hyphens. Events, templates, modifiers, actions and parameters
are all named by identifiers.
-/

def isIdentifierStart (c : Char) : Bool :=
  c.isAlpha || c == '_'

def isIdentifierPart (c : Char) : Bool :=
  c.isAlphanum || c == '_' || c == '-'

def isIdentifier : List Char → Bool
  | [] => false
  | c :: rest => isIdentifierStart c && rest.all isIdentifierPart

/-- Splits off the longest identifier at the start of the text. The first
part is empty when no identifier starts there. -/
def takeIdentifier : List Char → List Char × List Char
  | [] => ([], [])
  | c :: rest =>
      if isIdentifierStart c then
        (c :: rest.takeWhile isIdentifierPart, rest.dropWhile isIdentifierPart)
      else ([], c :: rest)

theorem takeIdentifier_append (text : List Char) :
    (takeIdentifier text).1 ++ (takeIdentifier text).2 = text := by
  cases text with
  | nil => rfl
  | cons c rest =>
      simp only [takeIdentifier]
      split
      · simp [List.takeWhile_append_dropWhile]
      · rfl

theorem takeIdentifier_length (text : List Char) :
    (takeIdentifier text).2.length ≤ text.length := by
  have lengths := congrArg List.length (takeIdentifier_append text)
  simp only [List.length_append] at lengths
  omega

/-- What is split off is an identifier, unless it is empty. -/
theorem takeIdentifier_isIdentifier {text : List Char}
    (found : (takeIdentifier text).1 ≠ []) : isIdentifier (takeIdentifier text).1 = true := by
  cases text with
  | nil => exact absurd rfl found
  | cons c rest =>
      by_cases start : isIdentifierStart c = true
      · simp only [takeIdentifier, start, if_true, isIdentifier, Bool.true_and]
        exact List.all_takeWhile
      · simp [takeIdentifier, start] at found

end EventBindings.Text
