import EventBindings.Text.Start
import Mathlib.Data.List.Basic

namespace EventBindings.Text

/-!
How texts begin. A text begins in one way only, and what follows its beginning is its rest.
-/

variable {start other text rest : String}

/-- The rest is what has to follow the start to give the text. -/
theorem afterStart?_eq_some_iff : afterStart? start text = some rest ↔ text = start ++ rest := by
  simp only [afterStart?, Option.map_eq_some_iff, List.isPrefixOf?_eq_some_iff_append_eq]
  constructor
  · intro given
    obtain ⟨after, same, rfl⟩ := given
    rw [← String.toList_inj, String.toList_append, String.toList_ofList, same]
  · intro same
    subst same
    exact ⟨rest.toList, String.toList_append.symm, String.ofList_toList⟩

@[simp] theorem afterStart?_append (start rest : String) :
    afterStart? start (start ++ rest) = some rest :=
  afterStart?_eq_some_iff.mpr rfl

theorem afterStart?_eq_none_iff : afterStart? start text = none ↔ ∀ rest, text ≠ start ++ rest := by
  rw [Option.eq_none_iff_forall_ne_some]
  simp only [ne_eq, afterStart?_eq_some_iff]

/-- A text does not begin in two ways that differ in a character. -/
theorem append_ne_append (place : Nat) (within : place < start.toList.length)
    (otherWithin : place < other.toList.length)
    (differ : start.toList[place]? ≠ other.toList[place]?) (rest otherRest : String) :
    start ++ rest ≠ other ++ otherRest := by
  intro same
  have letters := congrArg (fun text => text.toList[place]?) same
  simp only [String.toList_append, List.getElem?_append_left within,
    List.getElem?_append_left otherWithin] at letters
  exact differ letters

end EventBindings.Text
