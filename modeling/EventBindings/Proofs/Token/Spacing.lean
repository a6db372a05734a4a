import EventBindings.Proofs.Text.Spacing
import EventBindings.Proofs.Token.Separators

namespace EventBindings

open Text

/-!
The tokens of an expression in its normal spacing. They are those of its words,
one word after the other, and together they are spelled like the text without
its blanks.
-/

namespace Token

variable {token : Token} (named : token.Named)
include named

theorem spelling_ne_nil : token.spelling.toList ≠ [] := by
  cases token with
  | identifier name => exact IsName.ne_nil named
  | _ => simp [spelling, callText]

theorem visible_spelling : visible token.spelling.toList = token.spelling.toList := by
  have visible_name {name : String} (isName : IsName name) : visible name.toList = name.toList :=
    visible_of_bare fun c member =>
      isBlank_of_isIdentifierPart (isName.isIdentifierPart c member)
  cases token with
  | identifier name => exact visible_name named
  | modifier name =>
      have dot : visible ".".toList = ".".toList := by decide
      rw [spelling, String.toList_append, visible_append, dot, visible_name named]
  | call name =>
      have start : visible "$fir.".toList = "$fir.".toList := by decide
      have parentheses : visible "()".toList = "()".toList := by decide
      rw [spelling, callText, String.toList_append, String.toList_append, visible_append,
        visible_append, start, visible_name named, parentheses]
  | state outcome => cases outcome <;> decide
  | _ => decide

theorem semicolon_mem_spelling_iff : ';' ∈ token.spelling.toList ↔ token = .semicolon := by
  have not_mem_name {name : String} (isName : IsName name) : ';' ∉ name.toList := fun member =>
    not_separates_of_isIdentifierPart (isName.isIdentifierPart ';' member) (.inr (.inr rfl))
  cases token with
  | identifier name => simpa [spelling] using not_mem_name named
  | modifier name => simpa [spelling] using not_mem_name named
  | call name => simpa [spelling, callText] using not_mem_name named
  | state outcome => cases outcome <;> decide
  | _ => decide

end Token

namespace HasTokens

variable {text rest : List Char} {tokens : List Token}

theorem words_cons_iff {word : List Char} {words : List (List Char)} :
    HasTokens ([' '].intercalate (word :: words)) tokens ↔
      ∃ before behind, HasTokens word before ∧ HasTokens ([' '].intercalate words) behind ∧
        tokens = before ++ behind := by
  cases words with
  | nil => simp [List.intercalate, nil_iff]
  | cons second words =>
      have parts : [' '].intercalate (word :: second :: words) =
          word ++ ' ' :: [' '].intercalate (second :: words) := by simp [List.intercalate]
      rw [parts, append_iff (breaks_cons (.inl rfl))]
      simp only [space_iff]

/-- Between the tokens of two words it does not matter how many blanks there
are. -/
theorem words_iff : HasTokens ([' '].intercalate (words text)) tokens ↔
    HasTokens (spaced text) tokens := by
  induction text using wordInduction generalizing tokens with
  | word word bare =>
      rw [spaced_of_bare bare]
      by_cases empty : word = []
      · subst empty
        rfl
      · rw [words_of_bare bare empty]
        simp [List.intercalate]
  | blank word b rest bare isBlank_b ih =>
      have separated : spaced (word ++ b :: rest) = word ++ ' ' :: spaced rest := by
        rw [spaced_append, spaced_of_bare bare]
        simp [spaced, isBlank_b]
      rw [separated]
      by_cases empty : word = []
      · subst empty
        rw [List.nil_append, List.nil_append, words_of_blank isBlank_b, space_iff, ih]
      · rw [words_append_blank bare empty isBlank_b, words_cons_iff,
          append_iff (breaks_cons (.inl rfl))]
        simp only [space_iff, ih]

theorem normalizeBlanks_iff : HasTokens (normalizeBlanks text) tokens ↔
    HasTokens (spaced (padArrows text)) tokens :=
  words_iff

/-- The tokens on both sides of a semicolon do not depend on each other. -/
theorem normalizeBlanks_semicolon_iff : HasTokens (normalizeBlanks (text ++ ';' :: rest)) tokens ↔
    ∃ before behind, HasTokens (normalizeBlanks text) before ∧
      HasTokens (normalizeBlanks rest) behind ∧ tokens = before ++ .semicolon :: behind := by
  have padded : padArrows (';' :: rest) = ';' :: padArrows rest := by simp [padArrows]
  have separated : spaced (padArrows (text ++ ';' :: rest)) =
      spaced (padArrows text) ++ ';' :: spaced (padArrows rest) := by
    rw [padArrows_append (by simp), padded, spaced_append]
    rfl
  rw [normalizeBlanks_iff, separated, append_iff (breaks_cons (.inr (.inr rfl)))]
  simp only [semicolon_iff, normalizeBlanks_iff]
  constructor
  · rintro ⟨before, _, inText, ⟨behind, inRest, rfl⟩, rfl⟩
    exact ⟨before, behind, inText, inRest, rfl⟩
  · rintro ⟨before, behind, inText, inRest, rfl⟩
    exact ⟨before, _, inText, ⟨behind, inRest, rfl⟩, rfl⟩

theorem named (hasTokens : HasTokens text tokens) : ∀ token ∈ tokens, token.Named := by
  obtain ⟨placed, tokenized, rfl⟩ := hasTokens
  exact named_of_tokenizeFrom tokenized

/-- The tokens have all the characters of the text but its blanks. -/
theorem spelled_eq (hasTokens : HasTokens text tokens) : spelled tokens = visible text := by
  obtain ⟨placed, tokenized, rfl⟩ := hasTokens
  generalize 0 = offset at tokenized
  fun_induction tokenizeFrom offset text generalizing placed with
  | case1 offset =>
      cases tokenized
      rfl
  | case2 offset text ih => rw [visible_cons, if_pos isBlank_space, ih placed tokenized]
  | case3 => cases tokenized
  | case4 offset c text notSpace token rest read ih =>
      obtain ⟨others, behind, same⟩ := bind_eq_ok_iff.mp tokenized
      cases same
      rw [Token.readToken_spelling read, visible_append,
        Token.visible_spelling (Token.named_of_readToken read), ← ih others behind]
      rfl

theorem spelled_normalizeBlanks (hasTokens : HasTokens (normalizeBlanks text) tokens) :
    spelled tokens = visible text := by
  rw [normalizeBlanks_iff] at hasTokens
  rw [hasTokens.spelled_eq, visible_spaced, visible_padArrows]

theorem nil_normalizeBlanks_iff :
    HasTokens (normalizeBlanks text) [] ↔ text.all isBlank = true := by
  constructor
  · intro hasTokens
    rw [← visible_eq_nil_iff, ← hasTokens.spelled_normalizeBlanks, spelled_nil]
  · intro blank
    rw [normalizeBlanks_iff]
    rw [← visible_eq_nil_iff, ← visible_padArrows] at blank
    generalize padArrows text = padded at blank
    induction padded with
    | nil => exact nil_iff.mpr rfl
    | cons c padded ih =>
        rw [visible_cons] at blank
        cases isBlank_c : isBlank c with
        | false => simp [isBlank_c] at blank
        | true =>
            rw [spaced, List.map_cons, ← spaced, isBlank_c, if_pos rfl, space_iff]
            exact ih (by simpa [isBlank_c] using blank)

theorem getLast?_normalizeBlanks_iff (hasTokens : HasTokens (normalizeBlanks text) tokens) :
    tokens.getLast? = some .semicolon ↔ (visible text).getLast? = some ';' := by
  have named := hasTokens.named
  rw [← hasTokens.spelled_normalizeBlanks]
  rcases List.eq_nil_or_concat tokens with rfl | ⟨others, last, same⟩
  · simp [spelled_nil]
  · rw [List.concat_eq_append] at same
    subst same
    have namedLast := named last (by simp)
    have reached : (spelled (others ++ [last])).getLast? = last.spelling.toList.getLast? := by
      have single : spelled [last] = last.spelling.toList := by simp [spelled]
      rw [spelled_append, single, List.getLast?_append,
        List.getLast?_eq_some_getLast (Token.spelling_ne_nil namedLast), Option.some_or]
    rw [reached, List.getLast?_concat, Option.some.injEq]
    constructor
    · rintro rfl
      rfl
    · intro ends
      exact (Token.semicolon_mem_spelling_iff namedLast).mp (List.mem_of_getLast? ends)

end HasTokens

end EventBindings
