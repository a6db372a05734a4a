import EventBindings.Text.CodePoints

namespace EventBindings.Text

/-!
Blank characters: the Unicode property `White_Space`. Blanks separate words,
and trimming removes them from both ends of a text.
-/

/-- The code points with the property `White_Space`. -/
def blankRanges : CodePointRanges :=
  [(0x09, 0x0D), (0x20, 0x20), (0x85, 0x85), (0xA0, 0xA0), (0x1680, 0x1680),
    (0x2000, 0x200A), (0x2028, 0x2029), (0x202F, 0x202F), (0x205F, 0x205F), (0x3000, 0x3000)]

/-- A character that separates words. -/
def isBlank (c : Char) : Bool :=
  blankRanges.holds c

def trimBlanks (text : List Char) : List Char :=
  ((text.dropWhile isBlank).reverse.dropWhile isBlank).reverse

def trim (text : String) : String :=
  String.ofList (trimBlanks text.toList)

def isAllBlank (text : String) : Bool :=
  text.toList.all isBlank

/-- The words of a text: its longest stretches without a blank, in order. -/
def words : List Char → List (List Char)
  | [] => []
  | c :: rest =>
      if isBlank c then words rest
      else match rest with
        | [] => [[c]]
        | next :: _ =>
            if isBlank next then [c] :: words rest
            else (words rest).modifyHead (c :: ·)

end EventBindings.Text
