import EventBindings.Proofs.Element.Recompilation

namespace EventBindings

/-!
Attributes read back from their lines. A line is cut at the first equals sign with
a quotation mark behind it, and its last quotation mark is dropped. Nothing in a
value is escaped, so this gives the attribute back only because no key has an
equals sign.
-/

namespace Text

/-- The text has no line feed. -/
def OneLine (text : String) : Prop :=
  '\n' ∉ text.toList

instance (text : String) : Decidable (OneLine text) :=
  inferInstanceAs (Decidable ('\n' ∉ text.toList))

theorem oneLine_append_iff {left right : String} :
    OneLine (left ++ right) ↔ OneLine left ∧ OneLine right := by
  rw [OneLine, String.toList_append, List.mem_append, not_or]
  rfl

theorem OneLine.intercalate {separator : String} {texts : List String}
    (between : OneLine separator) (all : ∀ text ∈ texts, OneLine text) :
    OneLine (String.intercalate separator texts) := by
  have other {text : String} (oneLine : OneLine text) (c : Char) (member : c ∈ text.toList) :
      c ≠ '\n' := fun feed => oneLine (feed ▸ member)
  have letters := forall_mem_intercalate (other between) fun text member => other (all text member)
  exact fun member => letters '\n' member rfl

theorem OneLine.trim {text : String} (oneLine : OneLine text) : OneLine (Text.trim text) := by
  intro member
  rw [Text.trim, String.toList_ofList, trimBlanks, List.mem_reverse] at member
  have inFront := (List.dropWhile_sublist isBlank).mem member
  exact oneLine ((List.dropWhile_sublist isBlank).mem (List.mem_reverse.mp inFront))

/-- What stands between the occurrences of a character. -/
def pieces (mark : Char) (text : String) : List String :=
  (text.toList.splitOn mark).map String.ofList

theorem pieces_intercalate {mark : Char} {texts : List String} (nonempty : texts ≠ [])
    (bare : ∀ text ∈ texts, mark ∉ text.toList) :
    pieces mark (String.intercalate (String.singleton mark) texts) = texts := by
  have bareLetters : ∀ letters ∈ texts.map String.toList, mark ∉ letters := by
    rwa [List.forall_mem_map]
  have split := List.splitOn_intercalate mark bareLetters (by simpa using nonempty)
  rw [pieces, String.toList_intercalate, String.toList_singleton, split, List.map_map]
  simp

/-- The lines of a text. A text without a line feed is one line. -/
def lines (text : String) : List String :=
  pieces '\n' text

/-- Cuts a text at the first equals sign with a quotation mark behind it. -/
def cutAtValue : List Char → Option (List Char × List Char)
  | [] => none
  | '=' :: '"' :: behind => some ([], behind)
  | c :: rest => (cutAtValue rest).map fun (before, behind) => (c :: before, behind)

theorem cutAtValue_append {key : List Char} (noSign : '=' ∉ key) (behind : List Char) :
    cutAtValue (key ++ '=' :: '"' :: behind) = some (key, behind) := by
  induction key with
  | nil => rfl
  | cons c key ih =>
      rw [List.mem_cons, not_or] at noSign
      rw [List.cons_append, cutAtValue, ih noSign.2]
      · rfl
      · intro _ sign
        exact absurd sign.symm noSign.1

end Text

theorem IsName.oneLine {name : String} (isName : IsName name) : Text.OneLine name :=
  isName.bare rfl

namespace Attribute

def ofLine? (line : String) : Option Attribute :=
  match Text.cutAtValue line.toList with
  | some (key, behind) =>
      if behind.getLast? = some '"' then some ⟨String.ofList key, String.ofList behind.dropLast⟩
      else none
  | none => none

/-- Whatever its value, an attribute is read back from its line if there is no
equals sign in its key. -/
theorem ofLine?_line {attr : Attribute} (noSign : '=' ∉ attr.key.toList) :
    ofLine? attr.line = some attr := by
  have letters : attr.line.toList =
      attr.key.toList ++ '=' :: '"' :: (attr.value.toList ++ ['"']) := by
    simp [line]
  rw [ofLine?, letters, Text.cutAtValue_append noSign]
  simp

theorem Emitted.inKey {attr : Attribute} (emitted : attr.Emitted) :
    ∀ c ∈ attr.key.toList, InKey c := by
  obtain ⟨binding, writable, rfl⟩ := emitted
  exact ResolvedBinding.inKey_canonicalKey writable

theorem Emitted.ofLine?_line {attr : Attribute} (emitted : attr.Emitted) :
    ofLine? attr.line = some attr :=
  Attribute.ofLine?_line fun sign => (emitted.inKey '=' sign).1 rfl

theorem Emitted.oneLine_line {attr : Attribute} (emitted : attr.Emitted)
    (oneLine : Text.OneLine attr.value) : Text.OneLine attr.line := by
  have key : Text.OneLine attr.key := by
    intro feed
    cases (emitted.inKey '\n' feed).2
  simp only [line, Text.oneLine_append_iff]
  exact ⟨⟨⟨key, by decide⟩, oneLine⟩, by decide⟩

end Attribute

theorem Attribute.line_ne_empty (attr : Attribute) : attr.line ≠ "" := by
  intro empty
  have letters := congrArg String.toList empty
  simp [line] at letters

theorem renderLines_eq_empty_iff {attributes : List Attribute} :
    renderLines attributes = "" ↔ attributes = [] := by
  cases attributes with
  | nil => simp [renderLines]
  | cons attr attributes =>
      refine iff_of_false ?_ (List.cons_ne_nil _ _)
      cases attributes with
      | nil => simpa [renderLines] using attr.line_ne_empty
      | cons second attributes =>
          intro empty
          have letters := congrArg String.toList empty
          simp [renderLines, String.intercalate_cons_cons] at letters

/-- Reads attributes back from their lines. No text stands for no attribute. -/
def readLines? (text : String) : Option (List Attribute) :=
  if text = "" then some [] else (Text.lines text).mapM Attribute.ofLine?

section Emitted

variable {attributes : List Attribute} (emitted : ∀ attr ∈ attributes, attr.Emitted)
  (oneLine : ∀ attr ∈ attributes, Text.OneLine attr.value)
include emitted oneLine

theorem lines_renderLines (nonempty : attributes ≠ []) :
    Text.lines (renderLines attributes) = attributes.map Attribute.line := by
  apply Text.pieces_intercalate (by simpa using nonempty)
  rw [List.forall_mem_map]
  exact fun attr member => (emitted attr member).oneLine_line (oneLine attr member)

/-- Attributes with readable keys and values on one line are read back from their
lines. -/
theorem readLines?_renderLines : readLines? (renderLines attributes) = some attributes := by
  by_cases nonempty : attributes = []
  · subst nonempty
    rfl
  · have read := mapM_eq_some_map fun attr member => (emitted attr member).ofLine?_line
    rw [List.map_id'] at read
    rw [readLines?, if_neg (fun empty => nonempty (renderLines_eq_empty_iff.mp empty)),
      lines_renderLines emitted oneLine nonempty, List.mapM_map]
    exact read

end Emitted

end EventBindings
