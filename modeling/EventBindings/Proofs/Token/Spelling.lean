import EventBindings.Proofs.Fallible
import EventBindings.Token.Lexer

namespace EventBindings

open Text

/-!
Tokens written one after the other are read back, provided that their names are
identifiers and that no name is lengthened by what is written behind it. And
whatever is read, its names are identifiers.
-/

def IsName (name : String) : Prop :=
  isIdentifier name.toList = true

instance (name : String) : Decidable (IsName name) :=
  inferInstanceAs (Decidable (isIdentifier name.toList = true))

namespace Text

/-- No character stands first that would continue an identifier. -/
def EndsName (rest : List Char) : Prop :=
  ∀ c, rest.head? = some c → isIdentifierPart c = false

theorem takeWhile_of_endsName {rest : List Char} (ends : EndsName rest) :
    rest.takeWhile isIdentifierPart = [] := by
  cases rest with
  | nil => rfl
  | cons c rest => simp [ends c rfl]

theorem dropWhile_of_endsName {rest : List Char} (ends : EndsName rest) :
    rest.dropWhile isIdentifierPart = rest := by
  cases rest with
  | nil => rfl
  | cons c rest => simp [ends c rfl]

theorem takeIdentifier_append_of_isIdentifier {name rest : List Char}
    (identifier : isIdentifier name = true) (ends : EndsName rest) :
    takeIdentifier (name ++ rest) = (name, rest) := by
  cases name with
  | nil => simp [isIdentifier] at identifier
  | cons c name =>
      simp only [isIdentifier, Bool.and_eq_true, List.all_eq_true] at identifier
      obtain ⟨start, parts⟩ := identifier
      rw [List.cons_append, takeIdentifier, if_pos start,
        List.takeWhile_append_of_pos parts, List.dropWhile_append_of_pos parts,
        takeWhile_of_endsName ends, dropWhile_of_endsName ends, List.append_nil]

end Text

theorem isName_of_takeIdentifier {text name rest : List Char}
    (taken : takeIdentifier text = (name, rest)) (nonempty : name ≠ []) :
    IsName (String.ofList name) := by
  have found : (takeIdentifier text).1 ≠ [] := by rwa [taken]
  have identifier := takeIdentifier_isIdentifier found
  rw [taken] at identifier
  simpa [IsName] using identifier

theorem IsName.ne_nil {name : String} (isName : IsName name) : name.toList ≠ [] := by
  intro empty
  simp [IsName, empty, isIdentifier] at isName

theorem IsName.isIdentifierPart {name : String} (isName : IsName name) :
    ∀ c ∈ name.toList, Text.isIdentifierPart c = true := by
  unfold IsName at isName
  cases letters : name.toList with
  | nil => exact nofun
  | cons c rest =>
      simp only [letters, Text.isIdentifier, Bool.and_eq_true, List.all_eq_true] at isName
      have first : Text.isIdentifierPart c = true := by
        have start := isName.1
        simp only [Text.isIdentifierStart, Bool.or_eq_true] at start
        rcases start with letter | underscore
        · simp [Text.isIdentifierPart, Char.isAlphanum, letter]
        · simp [Text.isIdentifierPart, underscore]
      exact List.forall_mem_cons.mpr ⟨first, isName.2⟩

theorem IsName.bare {name : String} (isName : IsName name) {c : Char}
    (other : Text.isIdentifierPart c = false) : c ∉ name.toList := by
  intro member
  rw [isName.isIdentifierPart c member] at other
  cases other

theorem EventState.isName_name (state : EventState) : IsName state.name := by
  cases state <;> decide

namespace Token

def Named : Token → Prop
  | identifier name | modifier name | call name => IsName name
  | _ => True

def endsInName : Token → Bool
  | identifier _ | state _ | modifier _ => true
  | _ => false

/-- A token that would lengthen a name before it. -/
def lengthensName : Token → Bool
  | identifier _ | arrow => true
  | _ => false

theorem readToken_of_isIdentifierStart {c : Char} (start : isIdentifierStart c = true)
    (offset : Nat) (text : List Char) :
    readToken offset c text = .ok (.identifier (String.ofList (c :: text.takeWhile isIdentifierPart)),
      text.dropWhile isIdentifierPart) := by
  unfold readToken
  split
  case h_11 => rw [if_pos start]
  all_goals exact absurd start (by decide)

theorem readState_name (state : EventState) {rest : List Char} (ends : EndsName rest)
    (offset : Nat) : readState offset (state.name.toList ++ rest) = .ok (.state state, rest) := by
  rw [readState, takeIdentifier_append_of_isIdentifier state.isName_name ends]
  simp

theorem readModifier_name {name : String} (isName : IsName name) {rest : List Char}
    (ends : EndsName rest) (offset : Nat) :
    readModifier offset (name.toList ++ rest) = .ok (.modifier name, rest) := by
  rw [readModifier, takeIdentifier_append_of_isIdentifier isName ends]
  simp [isName.ne_nil]

theorem readCall_name {name : String} (isName : IsName name) (rest : List Char) (offset : Nat) :
    readCall offset ('f' :: 'i' :: 'r' :: '.' :: (name.toList ++ '(' :: ')' :: rest)) =
      .ok (.call name, rest) := by
  have ends : EndsName ('(' :: ')' :: rest) := by
    intro c found
    cases found
    decide
  rw [readCall, takeIdentifier_append_of_isIdentifier isName ends]
  simp [isName.ne_nil]

/-- What stands behind the token does not lengthen it. -/
def EndsBefore (token : Token) (rest : List Char) : Prop :=
  token.endsInName = true → EndsName rest

/-- A spelled token is read back, and leaves what stands behind it. -/
theorem readToken_of_spelling {token : Token} {rest : List Char} (named : token.Named)
    (ends : token.EndsBefore rest) :
    ∃ c text, token.spelling.toList ++ rest = c :: text ∧ c ≠ ' ' ∧
      ∀ offset, readToken offset c text = .ok (token, rest) := by
  cases token with
  | identifier name =>
      obtain ⟨c, part, letters⟩ := List.exists_cons_of_ne_nil named.ne_nil
      have isName : isIdentifier (c :: part) = true := letters ▸ named
      simp only [isIdentifier, Bool.and_eq_true, List.all_eq_true] at isName
      obtain ⟨start, parts⟩ := isName
      refine ⟨c, part ++ rest, by simp [spelling, letters], ?_, ?_⟩
      · intro same
        subst same
        exact absurd start (by decide)
      · intro offset
        rw [readToken_of_isIdentifierStart start, List.takeWhile_append_of_pos parts,
          List.dropWhile_append_of_pos parts, takeWhile_of_endsName (ends rfl),
          dropWhile_of_endsName (ends rfl), List.append_nil, ← letters, String.ofList_toList]
  | state outcome =>
      refine ⟨':', outcome.name.toList ++ rest, by simp [spelling], by decide, fun offset => ?_⟩
      have read := readState_name outcome (ends rfl) offset
      rw [← read]
      cases outcome <;> rfl
  | modifier name =>
      refine ⟨'.', name.toList ++ rest, by simp [spelling], by decide, fun offset => ?_⟩
      exact readModifier_name named (ends rfl) offset
  | call name =>
      refine ⟨'$', 'f' :: 'i' :: 'r' :: '.' :: (name.toList ++ '(' :: ')' :: rest),
        by simp [spelling, callText], by decide, fun offset => ?_⟩
      exact readCall_name named rest offset
  | arrow => exact ⟨'-', '>' :: rest, rfl, by decide, fun _ => rfl⟩
  | doubleArrow => exact ⟨'=', '>' :: rest, rfl, by decide, fun _ => rfl⟩
  | doubleColon => exact ⟨':', ':' :: rest, rfl, by decide, fun _ => rfl⟩
  | comma => exact ⟨',', rest, rfl, by decide, fun _ => rfl⟩
  | semicolon => exact ⟨';', rest, rfl, by decide, fun _ => rfl⟩
  | openBracket => exact ⟨'[', rest, rfl, by decide, fun _ => rfl⟩
  | closeBracket => exact ⟨']', rest, rfl, by decide, fun _ => rfl⟩

theorem named_of_readModifier {offset : Nat} {text rest : List Char} {token : Token}
    (read : readModifier offset text = .ok (token, rest)) : token.Named := by
  simp only [readModifier] at read
  split at read
  · contradiction
  · rename_i name after nonempty taken
    cases read
    exact isName_of_takeIdentifier taken (by intro empty; exact nonempty empty)

theorem named_of_readCall {offset : Nat} {text rest : List Char} {token : Token}
    (read : readCall offset text = .ok (token, rest)) : token.Named := by
  simp only [readCall] at read
  split at read
  · split at read
    · contradiction
    · rename_i name after nonempty taken
      cases read
      exact isName_of_takeIdentifier taken (by intro empty; exact nonempty empty)
    · contradiction
  · contradiction

theorem named_of_readToken {offset : Nat} {c : Char} {text rest : List Char} {token : Token}
    (read : readToken offset c text = .ok (token, rest)) : token.Named := by
  unfold readToken at read
  split at read
  case h_8 =>
    simp only [readState] at read
    split at read
    · cases read
      trivial
    · contradiction
  case h_9 => exact named_of_readModifier read
  case h_10 => exact named_of_readCall read
  case h_11 =>
    split at read
    · rename_i start
      cases read
      simp [Named, IsName, isIdentifier, start, List.all_takeWhile]
    · contradiction
  all_goals
    cases read
    trivial

theorem endsName_spelling {token : Token} (lengthens : token.lengthensName = false)
    (rest : List Char) : EndsName (token.spelling.toList ++ rest) := by
  intro c first
  cases token with
  | identifier name => cases lengthens
  | arrow => cases lengthens
  | state outcome =>
      simp only [spelling, String.toList_append] at first
      cases first
      decide
  | modifier name =>
      simp only [spelling, String.toList_append] at first
      cases first
      decide
  | call name =>
      simp only [spelling, callText, String.toList_append] at first
      cases first
      decide
  | _ =>
      cases first
      decide

end Token

def spelled (tokens : List Token) : List Char :=
  tokens.flatMap fun token => token.spelling.toList

theorem spelled_nil : spelled [] = [] := rfl

theorem spelled_append (left right : List Token) :
    spelled (left ++ right) = spelled left ++ spelled right := by
  simp [spelled]

theorem spelled_cons (token : Token) (tokens : List Token) :
    spelled (token :: tokens) = token.spelling.toList ++ spelled tokens := rfl

/-- Tokens in the places where they stand if they are written one after the
other. -/
def placeFrom (offset : Nat) : List Token → List PlacedToken
  | [] => []
  | token :: tokens => ⟨token, offset⟩ :: placeFrom (offset + token.width) tokens

@[simp] theorem map_token_placeFrom (offset : Nat) (tokens : List Token) :
    (placeFrom offset tokens).map PlacedToken.token = tokens := by
  induction tokens generalizing offset with
  | nil => rfl
  | cons token tokens ih => simp [placeFrom, ih]

/-- No name is followed by a token that would lengthen it. -/
def Apart : List Token → Prop
  | first :: second :: tokens =>
      ¬ (first.endsInName = true ∧ second.lengthensName = true) ∧ Apart (second :: tokens)
  | _ => True

theorem Apart.tail {token : Token} {tokens : List Token} (apart : Apart (token :: tokens)) :
    Apart tokens := by
  cases tokens with
  | nil => trivial
  | cons second tokens => exact apart.2

theorem Apart.endsBefore {token : Token} {tokens : List Token} (apart : Apart (token :: tokens)) :
    token.EndsBefore (spelled tokens) := by
  intro endsInName
  cases tokens with
  | nil => simp [EndsName, spelled]
  | cons second tokens =>
      have lengthens : second.lengthensName = false := by
        cases found : second.lengthensName with
        | false => rfl
        | true => exact absurd ⟨endsInName, found⟩ apart.1
      exact Token.endsName_spelling lengthens (spelled tokens)

theorem tokenizeFrom_cons {offset : Nat} {c : Char} {text rest : List Char} {token : Token}
    (notSpace : c ≠ ' ') (read : Token.readToken offset c text = .ok (token, rest)) :
    tokenizeFrom offset (c :: text) =
      (tokenizeFrom (offset + token.width) rest).map (⟨token, offset⟩ :: ·) := by
  rw [tokenizeFrom, if_neg notSpace]
  split
  · rename_i fault failed
    rw [read] at failed
    cases failed
  · rename_i token' rest' found
    rw [read] at found
    cases found
    cases tokenizeFrom (offset + token.width) rest <;> rfl

theorem tokenizeFrom_spelled {tokens : List Token} (named : ∀ token ∈ tokens, token.Named)
    (apart : Apart tokens) (offset : Nat) :
    tokenizeFrom offset (spelled tokens) = .ok (placeFrom offset tokens) := by
  induction tokens generalizing offset with
  | nil => simp [spelled, tokenizeFrom, placeFrom]
  | cons token tokens ih =>
      obtain ⟨c, text, letters, notSpace, read⟩ :=
        Token.readToken_of_spelling (named token (by simp)) apart.endsBefore
      have rest := ih (fun token member => named token (by simp [member])) apart.tail
        (offset + token.width)
      rw [spelled, List.flatMap_cons, ← spelled, letters, tokenizeFrom_cons notSpace (read offset),
        rest]
      rfl

/-- Tokens written one after the other are read back. -/
theorem tokenize_spelled {tokens : List Token} (named : ∀ token ∈ tokens, token.Named)
    (apart : Apart tokens) :
    tokenize (String.ofList (spelled tokens)) = .ok (placeFrom 0 tokens) := by
  rw [tokenize, String.toList_ofList]
  exact tokenizeFrom_spelled named apart 0

theorem named_of_tokenizeFrom {offset : Nat} {text : List Char} {placed : List PlacedToken}
    (tokenized : tokenizeFrom offset text = .ok placed) :
    ∀ token ∈ placed.map PlacedToken.token, token.Named := by
  fun_induction tokenizeFrom offset text generalizing placed with
  | case1 offset =>
      cases tokenized
      simp
  | case2 offset text ih => exact ih tokenized
  | case3 => cases tokenized
  | case4 offset c text notSpace token rest read ih =>
      obtain ⟨others, behind, same⟩ := bind_eq_ok_iff.mp tokenized
      cases same
      intro other member
      rcases List.mem_cons.mp member with rfl | inRest
      · exact Token.named_of_readToken read
      · exact ih behind other inRest

theorem tokenize_empty : tokenize "" = .ok [] := by
  simp [tokenize, tokenizeFrom]

end EventBindings
