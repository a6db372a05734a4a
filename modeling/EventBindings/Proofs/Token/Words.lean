import EventBindings.Proofs.Text.Normalization
import EventBindings.Proofs.Token.Tiling

namespace EventBindings

open Text

/-!
Tokens as words. Every token is a word on its own, so any tokens are those of the
text in normal spacing that has them as its words.
-/

namespace Token

variable {token : Token} (named : token.Named)
include named

theorem isBlank_of_mem_spelling : ∀ c ∈ token.spelling.toList, isBlank c = false := by
  intro c member
  rw [← visible_spelling named, visible, List.mem_filter] at member
  simpa using member.2

theorem eq_arrow_of_mem_spelling (member : '>' ∈ token.spelling.toList) :
    token = .arrow ∨ token = .doubleArrow := by
  have not_mem_name {name : String} (isName : IsName name) : '>' ∉ name.toList :=
    fun inName => absurd (isName.isIdentifierPart '>' inName) (by decide)
  cases token with
  | identifier name => exact absurd member (not_mem_name named)
  | modifier name => exact absurd member (by simpa [spelling] using not_mem_name named)
  | call name => exact absurd member (by simpa [spelling, callText] using not_mem_name named)
  | state outcome => exact absurd member (by cases outcome <;> decide)
  | arrow => exact .inl rfl
  | doubleArrow => exact .inr rfl
  | _ => exact absurd member (by decide)

theorem isWord_spelling : IsWord token.spelling.toList where
  nonempty := spelling_ne_nil named
  bare := isBlank_of_mem_spelling named
  whole := by
    intro arrow member inside
    obtain ⟨start, _, letters⟩ := exists_start_of_mem_arrows member
    have mark : '>' ∈ token.spelling.toList := inside.subset (by simp [letters])
    have long : token.spelling.toList.length = arrow.toList.length := by
      rw [letters]
      cases eq_arrow_of_mem_spelling named mark with
      | inl same => rw [same]; rfl
      | inr same => rw [same]; rfl
    exact (inside.eq_of_length long.symm).symm

end Token

variable {tokens : List Token} (named : ∀ token ∈ tokens, token.Named)
include named

theorem hasTokens_joined_spellings :
    HasTokens (joined (tokens.map fun token => token.spelling.toList)) tokens := by
  induction tokens with
  | nil => exact HasTokens.nil_iff.mpr rfl
  | cons token tokens ih =>
      rw [List.forall_mem_cons] at named
      exact HasTokens.words_cons_iff.mpr
        ⟨[token], tokens, HasTokens.of_named token named.1, ih named.2, rfl⟩

/-- Any tokens are those of a text in normal spacing. -/
theorem exists_text_of_tokens :
    ∃ text placed, Text.normalize text = text ∧ tokenize text = .ok placed ∧
      placed.map PlacedToken.token = tokens := by
  have areWords : ∀ word ∈ tokens.map fun token => token.spelling.toList, IsWord word :=
    List.forall_mem_map.mpr fun token member => Token.isWord_spelling (named token member)
  obtain ⟨placed, tokenized, same⟩ := hasTokens_joined_spellings named
  refine ⟨String.ofList (joined (tokens.map fun token => token.spelling.toList)), placed,
    ?_, ?_, same⟩
  · rw [Text.normalize, String.toList_ofList, normalizeBlanks_joined areWords]
  · rwa [tokenize, String.toList_ofList]

end EventBindings
