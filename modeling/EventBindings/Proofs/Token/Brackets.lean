import EventBindings.Proofs.Token.Tiling

namespace EventBindings

open Text

/-!
Brackets stand between tokens. They end a name before them like a space, and no
other token has one in it, so a text with spaces for its brackets has all other
tokens where they were.
-/

namespace Text

def isBracket (c : Char) : Bool :=
  c == '[' || c == ']'

/-- The text with a space for every bracket. -/
def clearBrackets (text : List Char) : List Char :=
  text.map fun c => if isBracket c then ' ' else c

/-- The text with a space for every bracket. -/
def unbracketed (text : String) : String :=
  String.ofList (clearBrackets text.toList)

variable {text rest : List Char}

theorem clearBrackets_cons (c : Char) (text : List Char) :
    clearBrackets (c :: text) = (if isBracket c then ' ' else c) :: clearBrackets text := rfl

theorem clearBrackets_append (text rest : List Char) :
    clearBrackets (text ++ rest) = clearBrackets text ++ clearBrackets rest :=
  List.map_append

theorem clearBrackets_of_forall (bare : ∀ c ∈ text, isBracket c = false) :
    clearBrackets text = text := by
  have kept : ∀ c ∈ text, (if isBracket c then ' ' else c) = c := by
    intro c member
    simp [bare c member]
  rw [clearBrackets, List.map_congr_left kept, List.map_id']

/-- Without brackets a text begins with a mark only if it did so with them. -/
theorem head?_of_clearBrackets {mark : Char} (notSpace : mark ≠ ' ')
    (first : (clearBrackets text).head? = some mark) : text.head? = some mark := by
  cases text with
  | nil => cases first
  | cons c text =>
      rw [clearBrackets_cons, List.head?_cons, Option.some.injEq] at first
      split at first
      · exact absurd first.symm notSpace
      · rw [List.head?_cons, first]

theorem endsName_clearBrackets (ends : EndsName text) : EndsName (clearBrackets text) := by
  intro c first
  by_cases isSpace : c = ' '
  · subst isSpace
    decide
  · exact ends c (head?_of_clearBrackets isSpace first)

theorem isBracket_of_isIdentifierPart {c : Char} (part : isIdentifierPart c = true) :
    isBracket c = false := by
  cases bracket : isBracket c with
  | false => rfl
  | true =>
      simp only [isBracket, Bool.or_eq_true, beq_iff_eq] at bracket
      rcases bracket with same | same <;> subst same <;> contradiction

theorem padArrows_clearBrackets (text : List Char) :
    padArrows (clearBrackets text) = clearBrackets (padArrows text) := by
  induction text using arrowInduction with
  | nil => rfl
  | arrow start rest starts ih =>
      have kept : isBracket start = false := by
        rcases starts with same | same <;> subst same <;> rfl
      have mark : isBracket '>' = false := rfl
      have space : isBracket ' ' = false := rfl
      simp [clearBrackets_cons, padArrows_arrow starts, kept, mark, space, ih]
  | cons c rest none ih =>
      have noneLeft : ¬ ArrowAcross [if isBracket c then ' ' else c] (clearBrackets rest) := by
        intro across
        obtain ⟨start, starts, ended, begun⟩ := across
        have notSpace : start ≠ ' ' := by rcases starts with same | same <;> subst same <;> decide
        have cleared : (clearBrackets [c]).head? = some start := ended
        have alone : [c].head? = some start := head?_of_clearBrackets notSpace cleared
        exact none ⟨start, starts, alone, head?_of_clearBrackets (by decide) begun⟩
      rw [padArrows_cons none, clearBrackets_cons, clearBrackets_cons, padArrows_cons noneLeft, ih]

theorem spaced_clearBrackets (text : List Char) :
    spaced (clearBrackets text) = clearBrackets (spaced text) := by
  have isBracket_space : isBracket ' ' = false := by decide
  rw [spaced, spaced, clearBrackets, clearBrackets, List.map_map, List.map_map]
  refine List.map_congr_left fun c _ => ?_
  cases bracket : isBracket c <;> cases blank : isBlank c <;>
    simp [bracket, blank, isBlank_space, isBracket_space]

end Text

namespace Token

def isBracket : Token → Bool
  | openBracket | closeBracket => true
  | _ => false

theorem clearBrackets_spelling {token : Token} (named : token.Named)
    (bare : token.isBracket = false) :
    clearBrackets token.spelling.toList = token.spelling.toList := by
  have bareName {name : String} (isName : IsName name) : clearBrackets name.toList = name.toList :=
    clearBrackets_of_forall fun c member =>
      isBracket_of_isIdentifierPart (isName.isIdentifierPart c member)
  cases token with
  | identifier name => exact bareName named
  | modifier name =>
      have dot : clearBrackets ".".toList = ".".toList := by decide
      rw [spelling, String.toList_append, clearBrackets_append, dot, bareName named]
  | call name =>
      have start : clearBrackets "$fir.".toList = "$fir.".toList := by decide
      have parentheses : clearBrackets "()".toList = "()".toList := by decide
      rw [spelling, callText, String.toList_append, String.toList_append, clearBrackets_append,
        clearBrackets_append, start, bareName named, parentheses]
  | state outcome => cases outcome <;> decide
  | openBracket | closeBracket => cases bare
  | _ => decide

end Token

/-- Without brackets all other tokens stand where they did. -/
theorem Tiled.clearBrackets {offset : Nat} {text : List Char} {placed : List PlacedToken}
    (tiled : Tiled offset text placed) :
    Tiled offset (clearBrackets text) (placed.filter fun next => !next.token.isBracket) := by
  induction tiled with
  | nil offset => exact .nil offset
  | space _ ih => exact .space ih
  | @token offset token rest placed named ends _ ih =>
      rw [clearBrackets_append]
      cases bracket : token.isBracket with
      | true =>
          rw [List.filter_cons_of_neg (by simp [bracket])]
          cases token with
          | openBracket | closeBracket => exact .space ih
          | _ => cases bracket
      | false =>
          rw [List.filter_cons_of_pos (by simp [bracket]),
            Token.clearBrackets_spelling named bracket]
          exact .token named (fun endsInName => endsName_clearBrackets (ends endsInName)) ih

/-- The tokens that are left without the brackets. -/
def withoutBrackets (tokens : List Token) : List Token :=
  tokens.filter (!·.isBracket)

namespace HasTokens

variable {text : List Char} {tokens : List Token}

theorem clearBrackets (hasTokens : HasTokens text tokens) :
    HasTokens (clearBrackets text) (withoutBrackets tokens) := by
  obtain ⟨placed, tokenized, rfl⟩ := hasTokens
  have tiled := (tokenizeFrom_eq_ok_iff.mp tokenized).clearBrackets
  refine ⟨_, tokenizeFrom_eq_ok_iff.mpr tiled, ?_⟩
  rw [withoutBrackets, List.filter_map]
  rfl

theorem normalizeBlanks_clearBrackets (hasTokens : HasTokens (normalizeBlanks text) tokens) :
    HasTokens (normalizeBlanks (Text.clearBrackets text)) (withoutBrackets tokens) := by
  rw [normalizeBlanks_iff] at hasTokens ⊢
  rw [padArrows_clearBrackets, spaced_clearBrackets]
  exact hasTokens.clearBrackets

end HasTokens

theorem withoutBrackets_append (tokens more : List Token) :
    withoutBrackets (tokens ++ more) = withoutBrackets tokens ++ withoutBrackets more :=
  List.filter_append ..

theorem withoutBrackets_of_forall {tokens : List Token}
    (bare : ∀ token ∈ tokens, token.isBracket = false) : withoutBrackets tokens = tokens :=
  List.filter_eq_self.mpr fun token member => by simp [bare token member]

end EventBindings
