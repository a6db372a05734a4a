import EventBindings.Text.Blank
import EventBindings.Text.Identifier
import Mathlib.Data.List.TakeWhile

namespace EventBindings.Text

/-!
Trimming takes blanks off both ends of a text and nothing else, so trimming
twice is trimming once. No character of an identifier is blank.
-/

theorem dropWhile_append_of_last {blank : Char → Bool} {last : Char} (text : List Char)
    (kept : blank last = false) :
    (text ++ [last]).dropWhile blank = text.dropWhile blank ++ [last] := by
  induction text with
  | nil => simp [kept]
  | cons c text ih =>
      cases same : blank c <;> simp [same, ih]

/-- The text has no blank at its ends. -/
def Trimmed (text : List Char) : Prop :=
  (∀ c, text.head? = some c → isBlank c = false) ∧
    ∀ c, text.getLast? = some c → isBlank c = false

theorem dropWhile_of_head {text : List Char}
    (starts : ∀ c, text.head? = some c → isBlank c = false) : text.dropWhile isBlank = text := by
  cases text with
  | nil => rfl
  | cons c text => simp [starts c rfl]

theorem trimBlanks_of_trimmed {text : List Char} (trimmed : Trimmed text) :
    trimBlanks text = text := by
  obtain ⟨starts, ends⟩ := trimmed
  have reversed : text.reverse.dropWhile isBlank = text.reverse :=
    dropWhile_of_head (by simpa using ends)
  rw [trimBlanks, dropWhile_of_head starts, reversed, List.reverse_reverse]

theorem head_dropWhile {text : List Char} {c : Char}
    (first : (text.dropWhile isBlank).head? = some c) : isBlank c = false := by
  have found := List.head?_dropWhile_not isBlank text
  rw [first] at found
  simpa using found

theorem trimBlanks_of_dropWhile {text rest : List Char} {start : Char}
    (started : text.dropWhile isBlank = start :: rest) :
    trimBlanks text = start :: (rest.reverse.dropWhile isBlank).reverse := by
  have kept : isBlank start = false := head_dropWhile (by rw [started]; rfl)
  rw [trimBlanks, started, List.reverse_cons, dropWhile_append_of_last _ kept,
    List.reverse_append]
  rfl

theorem trimmed_trimBlanks (text : List Char) : Trimmed (trimBlanks text) := by
  constructor
  · intro c first
    cases started : text.dropWhile isBlank with
    | nil => simp [trimBlanks, started] at first
    | cons start rest =>
        rw [trimBlanks_of_dropWhile started] at first
        cases first
        exact head_dropWhile (by rw [started]; rfl)
  · intro c last
    rw [trimBlanks, List.getLast?_reverse] at last
    exact head_dropWhile last

theorem trimBlanks_of_forall {text : List Char} (bare : ∀ c ∈ text, isBlank c = false) :
    trimBlanks text = text :=
  trimBlanks_of_trimmed ⟨fun c first => bare c (List.mem_of_head? first),
    fun c last => bare c (List.mem_of_getLast? last)⟩

@[simp] theorem trim_trim (text : String) : trim (trim text) = trim text := by
  have inner : trimBlanks (trimBlanks text.toList) = trimBlanks text.toList :=
    trimBlanks_of_trimmed (trimmed_trimBlanks text.toList)
  rw [trim, trim, String.toList_ofList, inner]

theorem trimBlanks_eq_nil_iff {text : List Char} :
    trimBlanks text = [] ↔ text.all isBlank = true := by
  rw [List.all_eq_true, ← List.dropWhile_eq_nil_iff]
  cases started : text.dropWhile isBlank with
  | nil => simp [trimBlanks, started]
  | cons start rest => simp [trimBlanks_of_dropWhile started]

/-- A text is all blank exactly if trimming leaves nothing of it. -/
theorem isAllBlank_iff {text : String} : isAllBlank text = true ↔ trim text = "" := by
  rw [isAllBlank, ← trimBlanks_eq_nil_iff, trim, String.ofList_eq_empty_iff]

theorem isAllBlank_trim (text : String) : isAllBlank (trim text) = isAllBlank text := by
  rw [Bool.eq_iff_iff, isAllBlank_iff, isAllBlank_iff, trim_trim]

theorem toNat_of_isIdentifierPart {c : Char} (part : isIdentifierPart c = true) :
    0x2D ≤ c.toNat ∧ c.toNat ≤ 0x7A := by
  have classes : (((decide ('A'.val ≤ c.val ∧ c.val ≤ 'Z'.val) ||
      decide ('a'.val ≤ c.val) && decide (c.val ≤ 'z'.val)) ||
      decide ('0'.val ≤ c.val) && decide (c.val ≤ '9'.val)) || c == '_' || c == '-') = true := part
  simp only [Bool.or_eq_true, Bool.and_eq_true, decide_eq_true_eq, beq_iff_eq,
    UInt32.le_iff_toNat_le] at classes
  rcases classes with ((letter | digit) | rfl) | rfl
  · have bounds : (0x41 ≤ c.toNat ∧ c.toNat ≤ 0x5A) ∨ (0x61 ≤ c.toNat ∧ c.toNat ≤ 0x7A) := letter
    omega
  · have bounds : 0x30 ≤ c.toNat ∧ c.toNat ≤ 0x39 := digit
    omega
  · decide
  · decide

theorem isBlank_of_isIdentifierPart {c : Char} (part : isIdentifierPart c = true) :
    isBlank c = false := by
  have bounds := toNat_of_isIdentifierPart part
  simp only [isBlank, blankRanges, CodePointRanges.holds, List.any_cons, List.any_nil,
    Bool.or_eq_false_iff, Bool.and_eq_false_iff, decide_eq_false_iff_not, and_true]
  omega

end EventBindings.Text
