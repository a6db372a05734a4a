import EventBindings.Binding.ExpressionReader
import EventBindings.Proofs.Text.Spacing

namespace EventBindings

/-!
The normal spacing of a text. A text has it exactly if it is words with one space
between two of them, where an arrow is a word of its own. Normalizing gives a text
this spacing with its visible characters as they were, so it changes nothing the
second time.
-/

namespace Text

/-- The words with one space between two of them. -/
def joined (words : List (List Char)) : List Char :=
  [' '].intercalate words

theorem joined_singleton (word : List Char) : joined [word] = word :=
  List.intercalate_singleton

theorem joined_cons {word : List Char} {others : List (List Char)} (nonempty : others ≠ []) :
    joined (word :: others) = word ++ ' ' :: joined others := by
  rw [joined, List.intercalate_cons_of_ne_nil nonempty, List.append_assoc]
  rfl

theorem joined_modifyHead (c : Char) {words : List (List Char)} (nonempty : words ≠ []) :
    joined (words.modifyHead (c :: ·)) = c :: joined words := by
  cases words with
  | nil => exact absurd rfl nonempty
  | cons word others =>
      rw [List.modifyHead_cons]
      cases others with
      | nil => rfl
      | cons second others =>
          rw [joined_cons (List.cons_ne_nil _ _), joined_cons (List.cons_ne_nil _ _),
            List.cons_append]

/-- A word of a text in its normal spacing. -/
structure IsWord (word : List Char) : Prop where
  nonempty : word ≠ []
  bare : ∀ c ∈ word, isBlank c = false
  whole : ∀ arrow ∈ arrows, arrow.toList <:+: word → word = arrow.toList

/-- No blank is at the ends of the text, no blank is other than a space, no two spaces
follow each other, and each arrow is a word of its own. -/
structure NormalSpacing (text : List Char) : Prop where
  trimmed : Trimmed text
  spaces : ∀ c ∈ text, isBlank c = true → c = ' '
  single : ¬ [' ', ' '] <:+: text
  arrowsApart : ArrowsApart text

variable {text rest : List Char}

section Words

theorem ArrowsApart.isWord {word : List Char} (apart : ArrowsApart text) (inside : word <:+: text)
    (bare : ∀ c ∈ word, isBlank c = false) (nonempty : word ≠ []) : IsWord word := by
  have noSpace : ' ' ∉ word := fun member => by simpa [isBlank_space] using bare ' ' member
  refine ⟨nonempty, bare, fun arrow member inWord => ?_⟩
  obtain ⟨front, back, rfl⟩ := inside
  obtain ⟨before, behind, rfl⟩ := inWord
  obtain ⟨ends, begins⟩ := apart arrow member (front ++ before) (behind ++ back) (by simp)
  have noneBefore : before = [] := by
    cases last : before.getLast? with
    | none => simpa using last
    | some c =>
        have isSpace := ends c (by rw [List.getLast?_append, last, Option.some_or])
        have inFront : c ∈ before := List.mem_of_getLast? last
        rw [isSpace] at inFront
        exact absurd (by simp [inFront]) noSpace
  have noneBehind : behind = [] := by
    cases behind with
    | nil => rfl
    | cons c more =>
        have isSpace := begins c rfl
        subst isSpace
        exact absurd (by simp) noSpace
  rw [noneBefore, noneBehind, List.nil_append, List.append_nil]

theorem isWord_of_mem_words {word : List Char} (member : word ∈ words (padArrows text)) :
    IsWord word := by
  obtain ⟨nonempty, bare, inside⟩ := of_mem_words member
  exact (arrowsApart_padArrows text).isWord inside bare nonempty

theorem IsWord.words_padArrows {word : List Char} (isWord : IsWord word) :
    words (padArrows word) = [word] := by
  by_cases some : ∃ arrow ∈ arrows, arrow.toList <:+: word
  · obtain ⟨arrow, member, inside⟩ := some
    have same := isWord.whole arrow member inside
    obtain ⟨start, starts, letters⟩ := exists_start_of_mem_arrows member
    rw [letters] at same
    have behind : words ([start, '>'] ++ [' ']) = words [start, '>'] ++ words [] :=
      words_append_cons_blank isBlank_space _ _
    calc words (padArrows word) = words (' ' :: ([start, '>'] ++ [' '])) := by
          rw [same, padArrows_arrow starts]
          rfl
      _ = words [start, '>'] := by rw [words_of_blank isBlank_space, behind, words, List.append_nil]
      _ = [word] := by rw [← same, words_of_bare isWord.bare isWord.nonempty]
  · have none : ∀ arrow ∈ arrows, ¬ arrow.toList <:+: word :=
      fun arrow member inside => some ⟨arrow, member, inside⟩
    rw [padArrows_of_no_arrow none, words_of_bare isWord.bare isWord.nonempty]

end Words

section Joined

variable {ws : List (List Char)}

theorem joined_ne_nil (isWord : ∀ word ∈ ws, IsWord word) (nonempty : ws ≠ []) :
    joined ws ≠ [] := by
  cases ws with
  | nil => exact absurd rfl nonempty
  | cons word others =>
      have first := (isWord word (by simp)).nonempty
      by_cases last : others = []
      · subst last
        rwa [joined_singleton]
      · simp [joined_cons last]

theorem normalizeBlanks_joined (isWord : ∀ word ∈ ws, IsWord word) :
    normalizeBlanks (joined ws) = joined ws := by
  suffices words (padArrows (joined ws)) = ws by rw [normalizeBlanks, this, joined]
  induction ws with
  | nil => rfl
  | cons word others ih =>
      rw [List.forall_mem_cons] at isWord
      by_cases last : others = []
      · subst last
        rw [joined_singleton, isWord.1.words_padArrows]
      · have space : padArrows (' ' :: joined others) = ' ' :: padArrows (joined others) :=
          padArrows_cons (not_arrowAcross_of_ne (by decide) (by decide) _)
        rw [joined_cons last, padArrows_append (by simp), space,
          words_append_cons_blank isBlank_space, isWord.1.words_padArrows, ih isWord.2]
        rfl

/-- A piece without a space is on one side of a space. -/
theorem piece_of_space {piece word before behind : List Char} (noSpace : ' ' ∉ piece)
    (nonempty : piece ≠ []) (same : word ++ ' ' :: rest = before ++ piece ++ behind) :
    (∃ more, word = before ++ piece ++ more ∧ behind = more ++ ' ' :: rest) ∨
      ∃ more, before = word ++ ' ' :: more ∧ rest = more ++ piece ++ behind := by
  rw [List.append_assoc] at same
  cases List.append_eq_append_iff.mp same with
  | inl later =>
      obtain ⟨front, rfl, spaced⟩ := later
      cases front with
      | nil =>
          obtain ⟨c, piece, rfl⟩ := List.exists_cons_of_ne_nil nonempty
          cases spaced
          exact absurd (by simp) noSpace
      | cons c front =>
          cases spaced
          exact .inr ⟨front, rfl, (List.append_assoc ..).symm⟩
  | inr earlier =>
      obtain ⟨back, rfl, spaced⟩ := earlier
      cases List.append_eq_append_iff.mp spaced with
      | inl inWord =>
          obtain ⟨more, rfl, behindWord⟩ := inWord
          exact .inl ⟨more, (List.append_assoc ..).symm, behindWord⟩
      | inr across =>
          obtain ⟨cut, rfl, behindWord⟩ := across
          cases cut with
          | nil => exact .inl ⟨[], by simp, behindWord.symm⟩
          | cons c cut =>
              cases behindWord
              exact absurd (by simp) noSpace

theorem NormalSpacing.of_isWord {word : List Char} (isWord : IsWord word) : NormalSpacing word where
  trimmed := ⟨fun c first => isWord.bare c (List.mem_of_head? first),
    fun c last => isWord.bare c (List.mem_of_getLast? last)⟩
  spaces := fun c member blank => by simp [isWord.bare c member] at blank
  single := fun inside => by
    have blank := isWord.bare ' ' (inside.subset (by simp))
    simp [isBlank_space] at blank
  arrowsApart := by
    intro arrow member before behind same
    have alone := isWord.whole arrow member ⟨before, behind, same.symm⟩
    rw [alone, List.append_assoc] at same
    have lengths := congrArg List.length same
    simp only [List.length_append] at lengths
    have noneBefore : before = [] := List.length_eq_zero_iff.mp (by omega)
    have noneBehind : behind = [] := List.length_eq_zero_iff.mp (by omega)
    subst noneBefore noneBehind
    exact ⟨nofun, nofun⟩

theorem ArrowsApart.append_word {word : List Char} (own : ArrowsApart word)
    (apart : ArrowsApart rest) : ArrowsApart (word ++ ' ' :: rest) := by
  intro arrow member before behind same
  obtain ⟨start, _, letters⟩ := exists_start_of_mem_arrows member
  cases piece_of_space (space_not_mem_of_mem_arrows member) (by simp [letters]) same with
  | inl inWord =>
      obtain ⟨more, inside, rfl⟩ := inWord
      obtain ⟨ends, begins⟩ := own arrow member before more inside
      refine ⟨ends, fun c first => ?_⟩
      cases more with
      | nil => exact (Option.some.inj first).symm
      | cons next more => exact begins c first
  | inr inRest =>
      obtain ⟨more, rfl, inside⟩ := inRest
      obtain ⟨ends, begins⟩ := apart arrow member more behind inside
      refine ⟨fun c last => ?_, begins⟩
      rw [List.getLast?_append, List.getLast?_cons] at last
      cases final : more.getLast? with
      | none => simpa [final, eq_comm] using last
      | some d => exact ends c (by simpa [final] using last)

theorem not_twoSpaces_append_word {word : List Char} (isWord : IsWord word)
    (trimmed : Trimmed rest) (single : ¬ [' ', ' '] <:+: rest) :
    ¬ [' ', ' '] <:+: word ++ ' ' :: rest := by
  have notFirst : ¬ [' ', ' '] <+: ' ' :: rest := by
    intro begins
    obtain ⟨more, same⟩ := (List.cons_prefix_cons.mp begins).2
    have bare := trimmed.1 ' ' (by rw [← same]; rfl)
    rw [isBlank_space] at bare
    cases bare
  have noSpace : ' ' ∉ word := fun member => by simpa [isBlank_space] using isWord.bare ' ' member
  intro inside
  obtain inWord | inRest | across := List.infix_append_iff.mp inside
  · exact noSpace (inWord.subset (by simp))
  · exact (List.infix_cons_iff.mp inRest).elim notFirst single
  · obtain ⟨front, back, same, ends, begins⟩ := across
    cases front with
    | nil => exact notFirst (by rw [same]; exact begins)
    | cons c front =>
        have isSpace : ' ' = c := (List.cons.inj same).1
        exact noSpace (ends.subset (by rw [isSpace]; exact List.mem_cons_self))

theorem NormalSpacing.append_word {word : List Char} (isWord : IsWord word)
    (normal : NormalSpacing rest) (nonempty : rest ≠ []) : NormalSpacing (word ++ ' ' :: rest) where
  trimmed := by
    obtain ⟨c, more, rfl⟩ := List.exists_cons_of_ne_nil isWord.nonempty
    refine ⟨(of_isWord isWord).trimmed.1, fun d last => ?_⟩
    have final := List.getLast?_eq_some_getLast nonempty
    rw [List.append_cons, List.getLast?_append, final, Option.some_or] at last
    exact normal.trimmed.2 d (by rw [final, last])
  spaces := by
    intro c member blank
    simp only [List.mem_append, List.mem_cons] at member
    obtain inWord | isSpace | inRest := member
    · exact (of_isWord isWord).spaces c inWord blank
    · exact isSpace
    · exact normal.spaces c inRest blank
  single := not_twoSpaces_append_word isWord normal.trimmed normal.single
  arrowsApart := (of_isWord isWord).arrowsApart.append_word normal.arrowsApart

theorem normalSpacing_joined (isWord : ∀ word ∈ ws, IsWord word) : NormalSpacing (joined ws) := by
  induction ws with
  | nil =>
      refine ⟨⟨nofun, nofun⟩, nofun, by simp [joined], ?_⟩
      intro arrow member before behind same
      obtain ⟨start, _, letters⟩ := exists_start_of_mem_arrows member
      simp [joined, letters] at same
  | cons word others ih =>
      rw [List.forall_mem_cons] at isWord
      by_cases last : others = []
      · subst last
        rw [joined_singleton]
        exact .of_isWord isWord.1
      · rw [joined_cons last]
        exact .append_word isWord.1 (ih isWord.2) (joined_ne_nil isWord.2 last)

section OfAppend

variable {word : List Char} (normal : NormalSpacing (word ++ ' ' :: rest))
include normal

theorem NormalSpacing.ne_nil_of_append : word ≠ [] ∧ rest ≠ [] := by
  constructor
  · intro empty
    subst empty
    have bareStart := normal.trimmed.1 ' ' rfl
    rw [isBlank_space] at bareStart
    cases bareStart
  · intro empty
    subst empty
    have bareEnd := normal.trimmed.2 ' ' List.getLast?_concat
    rw [isBlank_space] at bareEnd
    cases bareEnd

theorem NormalSpacing.of_append : NormalSpacing rest := by
  have inside : rest <:+ word ++ ' ' :: rest :=
    (List.suffix_cons _ _).trans (List.suffix_append _ _)
  have last_of_last {text : List Char} {c : Char} (last : text.getLast? = some c) :
      (word ++ ' ' :: text).getLast? = some c := by
    rw [List.append_cons, List.getLast?_append, last, Option.some_or]
  refine ⟨⟨?_, fun c last => normal.trimmed.2 c (last_of_last last)⟩,
    fun c member => normal.spaces c (inside.subset member),
    fun twice => normal.single (twice.trans inside.isInfix), ?_⟩
  · intro c first
    obtain ⟨more, rfl⟩ := List.head?_eq_some_iff.mp first
    cases blank : isBlank c with
    | false => rfl
    | true =>
        have isSpace := normal.spaces c (by simp) blank
        subst isSpace
        exact absurd ⟨word, more, by simp⟩ normal.single
  · intro arrow member before behind same
    obtain ⟨ends, begins⟩ := normal.arrowsApart arrow member (word ++ ' ' :: before) behind
      (by simp [same])
    exact ⟨fun c last => ends c (last_of_last last), begins⟩

end OfAppend

theorem exists_joined_of_normalSpacing (normal : NormalSpacing text) :
    ∃ ws, (∀ word ∈ ws, IsWord word) ∧ joined ws = text := by
  induction text using wordInduction with
  | word word bare =>
      by_cases empty : word = []
      · exact ⟨[], nofun, empty.symm⟩
      · have isWord := normal.arrowsApart.isWord List.infix_rfl bare empty
        exact ⟨[word], List.forall_mem_singleton.mpr isWord, joined_singleton word⟩
  | blank word b rest bare isBlank_b ih =>
      have isSpace := normal.spaces b (by simp) isBlank_b
      subst isSpace
      obtain ⟨someBefore, someBehind⟩ := normal.ne_nil_of_append
      have isWord := normal.arrowsApart.isWord (List.prefix_append _ _).isInfix bare someBefore
      obtain ⟨ws, areWords, rfl⟩ := ih normal.of_append
      have some : ws ≠ [] := fun none => someBehind (by rw [none]; rfl)
      exact ⟨word :: ws, List.forall_mem_cons.mpr ⟨isWord, areWords⟩, joined_cons some⟩

theorem normalizeBlanks_of_normalSpacing (normal : NormalSpacing text) :
    normalizeBlanks text = text := by
  obtain ⟨ws, areWords, rfl⟩ := exists_joined_of_normalSpacing normal
  exact normalizeBlanks_joined areWords

theorem normalSpacing_normalizeBlanks (text : List Char) : NormalSpacing (normalizeBlanks text) :=
  normalSpacing_joined fun _ member => isWord_of_mem_words member

end Joined

section Visible

/-- Behind a visible character there is at most a space, and none before another
visible character. -/
theorem joined_words_cons {c : Char} (bare : isBlank c = false) (rest : List Char) :
    ∃ gap, joined (words (c :: rest)) = c :: (gap ++ joined (words rest)) ∧ visible gap = [] ∧
      ∀ next, rest.head? = some next → isBlank next = false → gap = [] := by
  have alone : ∀ d ∈ [c], isBlank d = false := List.forall_mem_singleton.mpr bare
  cases rest with
  | nil =>
      refine ⟨[], ?_, rfl, nofun⟩
      rw [words_of_bare alone (List.cons_ne_nil _ _)]
      rfl
  | cons next rest =>
      cases isBlank_next : isBlank next with
      | false =>
          have some := words_ne_nil isBlank_next rest
          refine ⟨[], ?_, rfl, fun _ _ _ => rfl⟩
          rw [words_of_word bare isBlank_next, joined_modifyHead c some, List.nil_append]
      | true =>
          have apart : words (c :: next :: rest) = [c] :: words (next :: rest) := by
            rw [words_of_blank isBlank_next]
            exact words_append_blank alone (List.cons_ne_nil _ _) isBlank_next
          have notBare : ∀ d, (next :: rest).head? = some d → isBlank d ≠ false := by
            intro d first
            cases first
            simp [isBlank_next]
          rw [apart]
          by_cases none : words (next :: rest) = []
          · exact ⟨[], by rw [none]; rfl, rfl, fun _ _ _ => rfl⟩
          · refine ⟨[' '], by rw [joined_cons none]; rfl, by simp [visible, isBlank_space], ?_⟩
            exact fun d first bareNext => absurd bareNext (notBare d first)

theorem visible_joined_words (text : List Char) : visible (joined (words text)) = visible text := by
  induction text with
  | nil => rfl
  | cons c text ih =>
      cases isBlank_c : isBlank c with
      | true => rw [words_of_blank isBlank_c, ih, visible_cons, if_pos isBlank_c]
      | false =>
          obtain ⟨gap, parts, noneVisible, -⟩ := joined_words_cons isBlank_c text
          rw [parts, visible_cons, visible_cons, visible_append, noneVisible, ih, List.nil_append]

theorem visible_normalizeBlanks (text : List Char) :
    visible (normalizeBlanks text) = visible text :=
  (visible_joined_words (padArrows text)).trans (visible_padArrows text)

/-- The two characters are next to each other, between what the two texts show. -/
def Adjacent (c d : Char) (before behind text : List Char) : Prop :=
  ∃ first last, text = first ++ c :: d :: last ∧ visible first = visible before ∧
    visible last = visible behind

variable {c d : Char} (bare : isBlank c = false) (bareNext : isBlank d = false)
include bare bareNext

theorem adjacent_joined_words (before behind : List Char) :
    Adjacent c d before behind (joined (words (before ++ c :: d :: behind))) := by
  induction before with
  | nil =>
      obtain ⟨gap, parts, -, joins⟩ := joined_words_cons bare (d :: behind)
      obtain ⟨gapBehind, partsBehind, noneVisible, -⟩ := joined_words_cons bareNext behind
      refine ⟨[], gapBehind ++ joined (words behind), ?_, rfl, ?_⟩
      · rw [List.nil_append, parts, joins d rfl bareNext, partsBehind]
        rfl
      · rw [visible_append, noneVisible, visible_joined_words, List.nil_append]
  | cons e before ih =>
      obtain ⟨first, last, rest, sameFirst, sameLast⟩ := ih
      cases isBlank_e : isBlank e with
      | true =>
          refine ⟨first, last, ?_, ?_, sameLast⟩
          · rw [List.cons_append, words_of_blank isBlank_e, rest]
          · rw [sameFirst, visible_cons, if_pos isBlank_e]
      | false =>
          obtain ⟨gap, parts, noneVisible, -⟩ :=
            joined_words_cons isBlank_e (before ++ c :: d :: behind)
          refine ⟨e :: (gap ++ first), last, ?_, ?_, sameLast⟩
          · rw [List.cons_append, parts, rest]
            simp
          · rw [visible_cons, visible_cons, visible_append, noneVisible, sameFirst, List.nil_append]

theorem adjacent_normalizeBlanks {before behind : List Char}
    (noneEnds : ¬ EndsWithArrow (before ++ [c])) (noneBegins : ¬ BeginsWithArrow (d :: behind)) :
    Adjacent c d before behind (normalizeBlanks (before ++ c :: d :: behind)) := by
  rw [endsWithArrow_concat_iff] at noneEnds
  rw [beginsWithArrow_cons_iff] at noneBegins
  suffices ∃ front back, padArrows (before ++ c :: d :: behind) = front ++ c :: d :: back ∧
      visible front = visible before ∧ visible back = visible behind by
    obtain ⟨front, back, padded, sameFront, sameBack⟩ := this
    obtain ⟨first, last, parts, sameFirst, sameLast⟩ :=
      adjacent_joined_words bare bareNext front back
    refine ⟨first, last, ?_, sameFirst.trans sameFront, sameLast.trans sameBack⟩
    rw [← parts, ← padded]
    rfl
  by_cases isArrow : ArrowAcross [c] [d]
  · obtain ⟨start, starts, ended, begun⟩ := isArrow
    have same : c = start := Option.some.inj ended
    have isMark : d = '>' := Option.some.inj begun
    subst same isMark
    have notMark : c ≠ '>' := by rcases starts with same | same <;> subst same <;> decide
    refine ⟨padArrows before ++ [' '], ' ' :: padArrows behind, ?_, ?_, ?_⟩
    · rw [padArrows_append (by simpa using notMark), padArrows_arrow starts]
      simp
    · have noneVisible : visible [' '] = [] := by decide
      rw [visible_append, noneVisible, List.append_nil, visible_padArrows]
    · rw [visible_cons, if_pos isBlank_space, visible_padArrows]
  · have apart : ¬ ArrowAcross (before ++ [c]) (d :: behind) := by
      simpa [ArrowAcross] using isArrow
    have parts : before ++ c :: d :: behind = before ++ [c] ++ d :: behind := by simp
    have alone : padArrows [c] = [c] := padArrows_cons (by simp [ArrowAcross])
    refine ⟨padArrows before, padArrows behind, ?_, visible_padArrows _, visible_padArrows _⟩
    rw [parts, padArrows_append_of_apart apart, padArrows_append_of_apart noneEnds,
      padArrows_cons noneBegins, alone, List.append_assoc]
    rfl

end Visible

theorem normalize_normalize (text : String) : normalize (normalize text) = normalize text := by
  rw [normalize, normalize, String.toList_ofList,
    normalizeBlanks_of_normalSpacing (normalSpacing_normalizeBlanks _)]

end Text

open Text

theorem parse_normalize (text : String) : parse (Text.normalize text) = parse text := by
  rw [parse, parse, normalize_normalize]

/-- Normalizing sets arrows apart by two replacements, one after the other, and brings
the text into its normal spacing. It keeps the visible characters and keeps two of them
next to each other, unless an arrow begins or ends between them. A text in the normal
spacing stays as it is, and so a text is read as it is read once it is normalized. -/
theorem normalize_spacing (text : String) :
    (Text.normalize text).toList = [' '].intercalate (words (replaceAll "=>".toList " => ".toList
        (replaceAll "->".toList " -> ".toList text.toList))) ∧
      visible (Text.normalize text).toList = visible text.toList ∧
      NormalSpacing (Text.normalize text).toList ∧
      Text.normalize (Text.normalize text) = Text.normalize text ∧
      (∀ other, NormalSpacing other.toList → Text.normalize other = other) ∧
      (∀ before c d behind, text.toList = before ++ c :: d :: behind →
        isBlank c = false → isBlank d = false →
        ¬ EndsWithArrow (before ++ [c]) → ¬ BeginsWithArrow (d :: behind) →
        Adjacent c d before behind (Text.normalize text).toList) ∧
      parse text = parse (Text.normalize text) := by
  have letters : (Text.normalize text).toList = normalizeBlanks text.toList := String.toList_ofList
  rw [letters]
  refine ⟨?_, visible_normalizeBlanks _, normalSpacing_normalizeBlanks _, normalize_normalize text,
    ?_, ?_, (parse_normalize text).symm⟩
  · rw [normalizeBlanks, padArrows_eq_replaceAll]
  · intro other normal
    rw [Text.normalize, normalizeBlanks_of_normalSpacing normal, String.ofList_toList]
  · intro before c d behind parts bare bareNext noneEnds noneBegins
    rw [parts]
    exact adjacent_normalizeBlanks bare bareNext noneEnds noneBegins

/-- Arrows that touch each other or other marks come apart. -/
example : Text.normalize "a-->>\tb=->c\u3000 ==>" = "a- -> > b= -> c = =>" := by
  decide +kernel

end EventBindings
