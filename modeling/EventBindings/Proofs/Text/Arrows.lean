import EventBindings.Text.Spacing

namespace EventBindings.Text

/-!
Arrows in a text. No two arrows share a character, so it is all the same whether
spaces are put around all arrows from the left to the right or around one kind of
them after the other.
-/

def arrows : List String := ["->", "=>"]

def BeginsWithArrow (text : List Char) : Prop :=
  ∃ arrow ∈ arrows, arrow.toList <+: text

def EndsWithArrow (text : List Char) : Prop :=
  ∃ arrow ∈ arrows, arrow.toList <:+ text

def StartsArrow (c : Char) : Prop :=
  c = '-' ∨ c = '='

/-- An arrow begins at the end of one text and ends at the start of the other. -/
def ArrowAcross (before behind : List Char) : Prop :=
  ∃ start, StartsArrow start ∧ before.getLast? = some start ∧ behind.head? = some '>'

theorem exists_start_of_mem_arrows {arrow : String} (member : arrow ∈ arrows) :
    ∃ start, StartsArrow start ∧ arrow.toList = [start, '>'] := by
  simp only [arrows, List.mem_cons, List.not_mem_nil, or_false] at member
  rcases member with same | same <;> subst same
  · exact ⟨'-', .inl rfl, rfl⟩
  · exact ⟨'=', .inr rfl, rfl⟩

theorem exists_arrow_of_start {start : Char} (starts : StartsArrow start) :
    ∃ arrow ∈ arrows, arrow.toList = [start, '>'] := by
  rcases starts with same | same <;> subst same
  · exact ⟨"->", by simp [arrows], rfl⟩
  · exact ⟨"=>", by simp [arrows], rfl⟩

variable {text tail rest : List Char} {c d : Char}

theorem beginsWithArrow_cons_iff : BeginsWithArrow (c :: rest) ↔ ArrowAcross [c] rest := by
  constructor
  · intro begins
    obtain ⟨arrow, member, more, same⟩ := begins
    obtain ⟨start, starts, letters⟩ := exists_start_of_mem_arrows member
    rw [letters] at same
    cases same
    exact ⟨c, starts, rfl, rfl⟩
  · intro across
    obtain ⟨start, starts, ended, begun⟩ := across
    obtain ⟨arrow, member, letters⟩ := exists_arrow_of_start starts
    obtain ⟨more, rfl⟩ := List.head?_eq_some_iff.mp begun
    cases ended
    exact ⟨arrow, member, more, by rw [letters]; rfl⟩

theorem endsWithArrow_concat_iff : EndsWithArrow (text ++ [d]) ↔ ArrowAcross text [d] := by
  constructor
  · intro ends
    obtain ⟨arrow, member, more, same⟩ := ends
    obtain ⟨start, starts, letters⟩ := exists_start_of_mem_arrows member
    rw [letters, List.append_cons] at same
    obtain ⟨rfl, last⟩ := List.append_inj' same rfl
    exact ⟨start, starts, by simp, by simp [← last]⟩
  · intro across
    obtain ⟨start, starts, ended, begun⟩ := across
    obtain ⟨arrow, member, letters⟩ := exists_arrow_of_start starts
    obtain ⟨more, rfl⟩ := List.getLast?_eq_some_iff.mp ended
    cases begun
    exact ⟨arrow, member, more, by simp [letters]⟩

theorem padArrows_arrow {start : Char} (starts : StartsArrow start) (rest : List Char) :
    padArrows (start :: '>' :: rest) = ' ' :: start :: '>' :: ' ' :: padArrows rest := by
  rcases starts with same | same <;> subst same <;> rw [padArrows]

theorem padArrows_cons (none : ¬ ArrowAcross [c] rest) :
    padArrows (c :: rest) = c :: padArrows rest := by
  rw [padArrows]
  · intro more isHyphen same
    exact none ⟨c, .inl isHyphen, rfl, by rw [same]; rfl⟩
  · intro more isEquals same
    exact none ⟨c, .inr isEquals, rfl, by rw [same]; rfl⟩

/-- A text is taken from the left, each arrow as a whole. -/
theorem arrowInduction {motive : List Char → Prop} (nil : motive [])
    (arrow : ∀ start rest, StartsArrow start → motive rest → motive (start :: '>' :: rest))
    (cons : ∀ c rest, ¬ ArrowAcross [c] rest → motive rest → motive (c :: rest))
    (text : List Char) : motive text := by
  fun_induction padArrows text with
  | case1 rest ih => exact arrow '-' rest (.inl rfl) ih
  | case2 rest ih => exact arrow '=' rest (.inr rfl) ih
  | case3 c rest hyphen equals ih =>
      refine cons c rest (fun across => ?_) ih
      obtain ⟨start, starts, ended, begun⟩ := across
      obtain ⟨more, rfl⟩ := List.head?_eq_some_iff.mp begun
      cases ended
      rcases starts with same | same
      · exact hyphen more same rfl
      · exact equals more same rfl
  | case4 => exact nil

theorem getLast?_cons_of_some (ended : text.getLast? = some d) :
    (c :: text).getLast? = some d := by
  rw [List.getLast?_cons, ended, Option.getD_some]

theorem ArrowAcross.of_cons (across : ArrowAcross text tail) : ArrowAcross (c :: text) tail := by
  obtain ⟨start, starts, ended, begun⟩ := across
  exact ⟨start, starts, getLast?_cons_of_some ended, begun⟩

/-- Spaces are put around the arrows of two texts apart, if no arrow lies across. -/
theorem padArrows_append_of_apart (apart : ¬ ArrowAcross text tail) :
    padArrows (text ++ tail) = padArrows text ++ padArrows tail := by
  induction text using arrowInduction with
  | nil => rfl
  | arrow start rest starts ih =>
      have others := ih fun across => apart across.of_cons.of_cons
      simp only [List.cons_append, padArrows_arrow starts, others]
  | cons c rest none ih =>
      have others := ih fun across => apart across.of_cons
      have noneBehind : ¬ ArrowAcross [c] (rest ++ tail) := by
        cases rest with
        | nil => exact apart
        | cons second rest => exact none
      rw [List.cons_append, padArrows_cons noneBehind, padArrows_cons none, others, List.cons_append]

theorem padArrows_append {tail : List Char} (apart : tail.head? ≠ some '>') (text : List Char) :
    padArrows (text ++ tail) = padArrows text ++ padArrows tail := by
  apply padArrows_append_of_apart
  intro across
  obtain ⟨_, _, _, begun⟩ := across
  exact apart begun

/-- A text without an arrow in it keeps its spacing. -/
theorem padArrows_of_no_arrow (none : ∀ arrow ∈ arrows, ¬ arrow.toList <:+: text) :
    padArrows text = text := by
  induction text using arrowInduction with
  | nil => rfl
  | arrow start rest starts =>
      obtain ⟨arrow, member, letters⟩ := exists_arrow_of_start starts
      exact absurd ⟨[], rest, by rw [letters]; rfl⟩ (none arrow member)
  | cons c rest apart ih =>
      rw [padArrows_cons apart, ih fun arrow member inRest => none arrow member (inRest.trans ?_)]
      exact (List.suffix_cons c rest).isInfix

theorem padArrows_of_not_mem (noMark : '>' ∉ text) : padArrows text = text := by
  apply padArrows_of_no_arrow
  intro arrow member inText
  obtain ⟨start, _, letters⟩ := exists_start_of_mem_arrows member
  exact noMark (inText.subset (by simp [letters]))

theorem space_not_mem_of_mem_arrows {arrow : String} (member : arrow ∈ arrows) :
    ' ' ∉ arrow.toList := by
  simp only [arrows, List.mem_cons, List.not_mem_nil, or_false] at member
  rcases member with same | same <;> subst same <;> decide

theorem head?_of_padArrows (first : (padArrows text).head? = some '>') : text.head? = some '>' := by
  induction text using arrowInduction with
  | nil => cases first
  | arrow start rest starts =>
      rw [padArrows_arrow starts] at first
      cases first
  | cons c rest none =>
      rw [padArrows_cons none] at first
      cases first
      rfl

/-- Each arrow has a space on both sides. -/
def ArrowsSpaced (text : List Char) : Prop :=
  ∀ start, StartsArrow start → ∀ before behind, text = before ++ start :: '>' :: behind →
    before.getLast? = some ' ' ∧ behind.head? = some ' '

theorem ArrowsSpaced.cons (spaced : ArrowsSpaced text) (none : ¬ ArrowAcross [c] text) :
    ArrowsSpaced (c :: text) := by
  intro start starts before behind same
  cases before with
  | nil =>
      cases same
      exact absurd ⟨_, starts, rfl, rfl⟩ none
  | cons first before =>
      cases same
      obtain ⟨ends, begins⟩ := spaced start starts before behind rfl
      exact ⟨getLast?_cons_of_some ends, begins⟩

theorem not_arrowAcross_of_ne (isHyphen : c ≠ '-') (isEquals : c ≠ '=')
    (text : List Char) : ¬ ArrowAcross [c] text := by
  intro across
  obtain ⟨start, starts, ended, _⟩ := across
  cases ended
  exact starts.elim isHyphen isEquals

theorem ArrowsSpaced.arrow (spaced : ArrowsSpaced text) (start : Char) :
    ArrowsSpaced (' ' :: start :: '>' :: ' ' :: text) := by
  have spacedBehind : ArrowsSpaced ('>' :: ' ' :: text) :=
    (spaced.cons (not_arrowAcross_of_ne (by decide) (by decide) _)).cons
      (not_arrowAcross_of_ne (by decide) (by decide) _)
  intro other starts before behind same
  cases before with
  | nil =>
      cases same
      exact absurd starts (by simp [StartsArrow])
  | cons first before =>
      cases before with
      | nil =>
          cases same
          exact ⟨rfl, rfl⟩
      | cons second before =>
          obtain ⟨rfl, rfl, rest⟩ : ' ' = first ∧ start = second ∧
              '>' :: ' ' :: text = before ++ other :: '>' :: behind := by simpa using same
          obtain ⟨ends, begins⟩ := spacedBehind other starts before behind rest
          exact ⟨getLast?_cons_of_some (getLast?_cons_of_some ends), begins⟩

theorem arrowsSpaced_padArrows (text : List Char) : ArrowsSpaced (padArrows text) := by
  induction text using arrowInduction with
  | nil =>
      intro start starts before behind same
      simp [padArrows] at same
  | arrow start rest starts ih =>
      rw [padArrows_arrow starts]
      exact ih.arrow start
  | cons c rest none ih =>
      rw [padArrows_cons none]
      refine ih.cons fun across => none ?_
      obtain ⟨start, starts, ended, begun⟩ := across
      exact ⟨start, starts, ended, head?_of_padArrows begun⟩

/-- Each arrow has a space or an end of the text on both sides. -/
def ArrowsApart (text : List Char) : Prop :=
  ∀ arrow ∈ arrows, ∀ before behind, text = before ++ arrow.toList ++ behind →
    (∀ c, before.getLast? = some c → c = ' ') ∧ ∀ c, behind.head? = some c → c = ' '

theorem arrowsApart_padArrows (text : List Char) : ArrowsApart (padArrows text) := by
  intro arrow member before behind same
  obtain ⟨start, starts, letters⟩ := exists_start_of_mem_arrows member
  rw [letters, List.append_assoc] at same
  obtain ⟨ends, begins⟩ := arrowsSpaced_padArrows text start starts before behind same
  rw [ends, begins]
  exact ⟨fun c last => (Option.some.inj last).symm, fun c first => (Option.some.inj first).symm⟩

/-- The text with the replacement in every place where the pattern, which is not empty,
stands, from left to right. -/
def replaceAll (pattern replacement : List Char) : List Char → List Char
  | [] => []
  | c :: rest =>
      if pattern <+: c :: rest then
        replacement ++ replaceAll pattern replacement (rest.drop (pattern.length - 1))
      else c :: replaceAll pattern replacement rest
termination_by text => text.length
decreasing_by
  · simp only [List.length_drop, List.length_cons]
    omega
  · simp

section ReplaceAll

variable {pattern replacement : List Char}

theorem replaceAll_nil : replaceAll pattern replacement [] = [] := by
  rw [replaceAll]

theorem replaceAll_cons (other : ¬ pattern <+: c :: rest) :
    replaceAll pattern replacement (c :: rest) = c :: replaceAll pattern replacement rest := by
  rw [replaceAll, if_neg other]

theorem replaceAll_pair (c d : Char) (rest : List Char) :
    replaceAll [c, d] replacement (c :: d :: rest) =
      replacement ++ replaceAll [c, d] replacement rest := by
  rw [replaceAll, if_pos ⟨rest, rfl⟩]
  rfl

/-- Replacing puts nothing in front but what the replacement begins with. -/
theorem head?_of_replaceAll {more : List Char} (other : c ≠ d)
    (first : (replaceAll pattern (c :: more) text).head? = some d) : text.head? = some d := by
  cases text with
  | nil =>
      rw [replaceAll_nil] at first
      cases first
  | cons start rest =>
      by_cases stands : pattern <+: start :: rest
      · rw [replaceAll, if_pos stands] at first
        cases first
        exact absurd rfl other
      · rwa [replaceAll_cons stands] at first

end ReplaceAll

/-- Around all arrows at once or around one kind of them after the other, the spaces
are the same. -/
theorem padArrows_eq_replaceAll (text : List Char) :
    padArrows text = replaceAll "=>".toList " => ".toList
      (replaceAll "->".toList " -> ".toList text) := by
  have single : "->".toList = ['-', '>'] := rfl
  have double : "=>".toList = ['=', '>'] := rfl
  have spacedSingle : " -> ".toList = [' ', '-', '>', ' '] := rfl
  have spacedDouble : " => ".toList = [' ', '=', '>', ' '] := rfl
  have unlike {a b c : Char} {rest : List Char} (other : a ≠ c) : ¬ [a, b] <+: c :: rest :=
    fun begins => other (List.cons_prefix_cons.mp begins).1
  rw [single, double, spacedSingle, spacedDouble]
  induction text using arrowInduction with
  | nil => simp only [padArrows, replaceAll_nil]
  | arrow start rest starts ih =>
      rw [padArrows_arrow starts, ih]
      rcases starts with same | same <;> subst same
      · rw [replaceAll_pair]
        simp only [List.cons_append, List.nil_append]
        iterate 4 rw [replaceAll_cons (unlike (by decide))]
      · have kept : replaceAll ['-', '>'] [' ', '-', '>', ' '] ('=' :: '>' :: rest) =
            '=' :: '>' :: replaceAll ['-', '>'] [' ', '-', '>', ' '] rest := by
          rw [replaceAll_cons (unlike (by decide)), replaceAll_cons (unlike (by decide))]
        rw [kept, replaceAll_pair]
        rfl
  | cons c rest none ih =>
      have noSingle : ¬ ['-', '>'] <+: c :: rest := by
        intro begins
        obtain ⟨more, same⟩ := begins
        cases same
        exact none ⟨'-', .inl rfl, rfl, rfl⟩
      have noDouble : ¬ ['=', '>'] <+: c :: replaceAll ['-', '>'] [' ', '-', '>', ' '] rest := by
        intro begins
        obtain ⟨isEquals, behind⟩ := List.cons_prefix_cons.mp begins
        obtain ⟨more, same⟩ := behind
        have notSpace : ' ' ≠ '>' := by decide
        have first : rest.head? = some '>' :=
          head?_of_replaceAll notSpace (by rw [← same]; rfl)
        exact none ⟨'=', .inr rfl, by rw [isEquals]; rfl, first⟩
      rw [padArrows_cons none, ih, replaceAll_cons noSingle, replaceAll_cons noDouble]

end EventBindings.Text
