namespace EventBindings.Text

/-!
Taking a known beginning off a text.
-/

/-- The rest of the text behind the given start, if the text begins with it. -/
def afterStart? (start text : String) : Option String :=
  (start.toList.isPrefixOf? text.toList).map String.ofList

end EventBindings.Text
