import EventBindings.Proofs.Text.Arrows
import EventBindings.Proofs.Text.Trimming

namespace EventBindings.Text

/-!
The spacing of a text, piece by piece. A text is words with blanks between them,
and no blank is of importance but for the two words that it separates.
-/

/-- The text without its blanks. -/
def visible (text : List Char) : List Char :=
  text.filter (!isBlank ·)

theorem isBlank_space : isBlank ' ' = true := by decide

/-- The last character that is not blank. -/
def lastVisible? (text : String) : Option Char :=
  (visible text.toList).getLast?

theorem visible_cons (c : Char) (text : List Char) :
    visible (c :: text) = if isBlank c then visible text else c :: visible text := by
  cases isBlank_c : isBlank c <;> simp [visible, isBlank_c]

/-- The text with a space for every blank. -/
def spaced (text : List Char) : List Char :=
  text.map fun c => if isBlank c then ' ' else c

/-- A text is a word, perhaps an empty one, or a word, a blank and another
text. -/
theorem wordInduction {motive : List Char → Prop}
    (word : ∀ word, (∀ c ∈ word, isBlank c = false) → motive word)
    (blank : ∀ word b rest, (∀ c ∈ word, isBlank c = false) → isBlank b = true → motive rest →
      motive (word ++ b :: rest)) (text : List Char) : motive text := by
  suffices ∀ start, (∀ c ∈ start, isBlank c = false) → motive (start ++ text) from this [] nofun
  induction text with
  | nil =>
      intro start bare
      rw [List.append_nil]
      exact word start bare
  | cons c text ih =>
      intro start bare
      cases isBlank_c : isBlank c with
      | true => exact blank start c text bare isBlank_c (ih [] nofun)
      | false =>
          have longer := ih (start ++ [c]) (by simpa [or_imp, forall_and] using ⟨bare, isBlank_c⟩)
          rwa [List.append_assoc] at longer

section Words

variable {text word rest : List Char} {b : Char}

theorem words_of_blank (isBlank_b : isBlank b = true) : words (b :: rest) = words rest := by
  cases rest <;> simp [words, isBlank_b]

theorem words_of_word {c next : Char} (bare : isBlank c = false) (bareNext : isBlank next = false) :
    words (c :: next :: rest) = (words (next :: rest)).modifyHead (c :: ·) := by
  rw [words, if_neg (by simp [bare]), if_neg (by simp [bareNext])]

theorem words_of_bare (bare : ∀ c ∈ word, isBlank c = false) (nonempty : word ≠ []) :
    words word = [word] := by
  induction word with
  | nil => exact absurd rfl nonempty
  | cons c word ih =>
      rw [List.forall_mem_cons] at bare
      cases word with
      | nil => simp [words, bare.1]
      | cons next word =>
          rw [words_of_word bare.1 (bare.2 next (by simp)), ih bare.2 (List.cons_ne_nil _ _)]
          rfl

theorem words_append_blank (bare : ∀ c ∈ word, isBlank c = false) (nonempty : word ≠ [])
    (isBlank_b : isBlank b = true) : words (word ++ b :: rest) = word :: words rest := by
  induction word with
  | nil => exact absurd rfl nonempty
  | cons c word ih =>
      rw [List.forall_mem_cons] at bare
      cases word with
      | nil =>
          have behind : words (b :: rest) = words rest := words_of_blank isBlank_b
          rw [List.singleton_append, words, if_neg (by simp [bare.1]), if_pos isBlank_b, behind]
      | cons next word =>
          have others := ih bare.2 (List.cons_ne_nil _ _)
          rw [List.cons_append, List.cons_append, words_of_word bare.1 (bare.2 next (by simp)),
            ← List.cons_append, others]
          rfl

theorem words_append_cons_blank {b : Char} (isBlank_b : isBlank b = true) (text rest : List Char) :
    words (text ++ b :: rest) = words text ++ words rest := by
  induction text using wordInduction with
  | word word bare =>
      by_cases empty : word = []
      · subst empty
        exact words_of_blank isBlank_b
      · rw [words_append_blank bare empty isBlank_b, words_of_bare bare empty]
        rfl
  | blank word other text bare isBlank_other ih =>
      rw [List.append_assoc, List.cons_append]
      by_cases empty : word = []
      · subst empty
        rw [List.nil_append, List.nil_append, words_of_blank isBlank_other,
          words_of_blank isBlank_other, ih]
      · rw [words_append_blank bare empty isBlank_other, words_append_blank bare empty isBlank_other,
          ih, List.cons_append]

theorem of_mem_words {word : List Char} (member : word ∈ words text) :
    word ≠ [] ∧ (∀ c ∈ word, isBlank c = false) ∧ word <:+: text := by
  induction text using wordInduction with
  | word whole bare =>
      by_cases empty : whole = []
      · subst empty
        cases member
      · rw [words_of_bare bare empty, List.mem_singleton] at member
        subst member
        exact ⟨empty, bare, List.infix_rfl⟩
  | blank first b rest bare isBlank_b ih =>
      rw [words_append_cons_blank isBlank_b, List.mem_append] at member
      cases member with
      | inl inFirst =>
          by_cases empty : first = []
          · subst empty
            cases inFirst
          · rw [words_of_bare bare empty, List.mem_singleton] at inFirst
            subst inFirst
            exact ⟨empty, bare, (List.prefix_append _ _).isInfix⟩
      | inr inRest =>
          obtain ⟨nonempty, bareWord, inside⟩ := ih inRest
          have suffix : rest <:+ first ++ b :: rest :=
            (List.suffix_cons b rest).trans (List.suffix_append first _)
          exact ⟨nonempty, bareWord, inside.trans suffix.isInfix⟩

theorem words_ne_nil {c : Char} (bare : isBlank c = false) (rest : List Char) :
    words (c :: rest) ≠ [] := by
  induction rest generalizing c with
  | nil => simp [words, bare]
  | cons next rest ih =>
      cases isBlank_next : isBlank next with
      | true => simp [words, bare, isBlank_next]
      | false =>
          rw [words_of_word bare isBlank_next, Ne, List.modifyHead_eq_nil_iff]
          exact ih isBlank_next

end Words

section Bare

variable {word : List Char} (bare : ∀ c ∈ word, isBlank c = false)
include bare

theorem spaced_of_bare : spaced word = word := by
  have kept : ∀ c ∈ word, (if isBlank c then ' ' else c) = c := by
    intro c member
    simp [bare c member]
  rw [spaced, List.map_congr_left kept, List.map_id']

theorem visible_of_bare : visible word = word := by
  rw [visible, List.filter_eq_self]
  exact fun c member => by simp [bare c member]

end Bare

theorem visible_append (text rest : List Char) :
    visible (text ++ rest) = visible text ++ visible rest :=
  List.filter_append text rest

theorem visible_eq_nil_iff {text : List Char} : visible text = [] ↔ text.all isBlank = true := by
  simp [visible]

theorem lastVisible?_append_blank {text blanks : String} (blank : isAllBlank blanks = true) :
    lastVisible? (text ++ blanks) = lastVisible? text := by
  rw [lastVisible?, String.toList_append, visible_append, visible_eq_nil_iff.mpr blank,
    List.append_nil, lastVisible?]

theorem lastVisible?_append_semicolon (text : String) : lastVisible? (text ++ ";") = some ';' := by
  have single : visible ";".toList = [';'] := by decide
  rw [lastVisible?, String.toList_append, visible_append, single, List.getLast?_concat]

theorem visible_spaced (text : List Char) : visible (spaced text) = visible text := by
  induction text with
  | nil => rfl
  | cons c text ih =>
      rw [spaced, List.map_cons, ← spaced, visible_cons, visible_cons, ih]
      cases isBlank_c : isBlank c <;> simp [isBlank_c, isBlank_space]

theorem spaced_append (text rest : List Char) :
    spaced (text ++ rest) = spaced text ++ spaced rest :=
  List.map_append

theorem visible_padArrows (text : List Char) : visible (padArrows text) = visible text := by
  fun_induction padArrows text with
  | case1 rest ih | case2 rest ih => simp [visible_cons, isBlank_space, ih]
  | case3 c rest _ _ ih => simp [visible_cons, ih]
  | case4 => rfl

end EventBindings.Text
