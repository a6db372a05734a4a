import EventBindings.Proofs.Text.Bytes

namespace EventBindings

open Text

/-!
Spaces, commas and semicolons belong to no longer token. So what stands before
such a character is read as if the text ended there, be it tokens or no tokens
at all, and what stands behind it as if the text began there.
-/

/-- No token but the character itself has the character in it. -/
def Separates (c : Char) : Prop :=
  c = ' ' ∨ c = ',' ∨ c = ';'

/-- The text is at its end, or a separator comes next. -/
def Breaks (rest : List Char) : Prop :=
  ∀ c, rest.head? = some c → Separates c

theorem breaks_nil : Breaks [] := nofun

theorem breaks_cons {c : Char} {rest : List Char} (separates : Separates c) :
    Breaks (c :: rest) := by
  intro first found
  cases found
  exact separates

theorem not_separates_of_isIdentifierPart {c : Char} (part : isIdentifierPart c = true) :
    ¬ Separates c := by
  rintro (rfl | rfl | rfl) <;> exact absurd part (by decide)

/-- The token in a text that stands the given distance further on. -/
def PlacedToken.shift (distance : Nat) (placed : PlacedToken) : PlacedToken :=
  { placed with offset := distance + placed.offset }

def GrammarError.shift (distance : Nat) : GrammarError → GrammarError
  | .empty => .empty
  | .emptyExpression offset => .emptyExpression (distance + offset)
  | .unexpectedCharacter c offset => .unexpectedCharacter c (distance + offset)
  | .unknownState name offset => .unknownState name (distance + offset)
  | .missingModifier offset => .missingModifier (distance + offset)
  | .malformedCall text offset => .malformedCall text (distance + offset)
  | .unclosedBracket offset => .unclosedBracket (distance + offset)
  | .expected expectation found offset => .expected expectation found (distance + offset)
  | .actionKey key fault => .actionKey key fault

namespace Breaks

variable {text tail : List Char} (breaks : Breaks tail)
include breaks

theorem endsName : EndsName tail := by
  intro c first
  have separates := breaks c first
  rcases separates with rfl | rfl | rfl <;> decide

/-- What begins before the break ends before it. -/
theorem exists_of_append_eq {start rest : List Char} (bare : ∀ c ∈ start, ¬ Separates c)
    (same : text ++ tail = start ++ rest) :
    ∃ inside, text = start ++ inside ∧ rest = inside ++ tail := by
  rcases List.append_eq_append_iff.mp same with ⟨behind, whole, reached⟩ | ⟨inside, whole, left⟩
  · cases behind with
    | nil => exact ⟨[], by simpa using whole.symm, by simpa using reached.symm⟩
    | cons c behind => exact absurd (breaks c (by simp [reached])) (bare c (by simp [whole]))
  · exact ⟨inside, whole, left⟩

theorem takeWhile_append :
    (text ++ tail).takeWhile isIdentifierPart = text.takeWhile isIdentifierPart := by
  induction text with
  | nil => exact takeWhile_of_endsName breaks.endsName
  | cons c text ih => simp only [List.cons_append, List.takeWhile_cons, ih]

theorem dropWhile_append :
    (text ++ tail).dropWhile isIdentifierPart = text.dropWhile isIdentifierPart ++ tail := by
  induction text with
  | nil => exact dropWhile_of_endsName breaks.endsName
  | cons c text ih => cases part : isIdentifierPart c <;> simp [part, ih]

theorem takeIdentifier_append : takeIdentifier (text ++ tail) =
    ((takeIdentifier text).1, (takeIdentifier text).2 ++ tail) := by
  cases text with
  | nil =>
      cases tail with
      | nil => rfl
      | cons c rest =>
          have separates := breaks c rfl
          rcases separates with rfl | rfl | rfl <;> rfl
  | cons c text =>
      by_cases started : isIdentifierStart c = true
      · simp only [takeIdentifier, started, List.cons_append, if_true, breaks.takeWhile_append,
          breaks.dropWhile_append]
      · simp [takeIdentifier, started]

theorem takeWhile_endsCall_append : (text ++ tail).takeWhile (!Token.endsCall ·) =
    text.takeWhile (!Token.endsCall ·) := by
  induction text with
  | nil =>
      cases tail with
      | nil => rfl
      | cons c rest =>
          have separates := breaks c rfl
          rcases separates with rfl | rfl | rfl <;> rfl
  | cons c text ih => simp only [List.cons_append, List.takeWhile_cons, ih]

end Breaks

namespace Token

section Read

variable {text : List Char}

theorem readToken_unexpected {c : Char} (bare : isIdentifierStart c = false)
    (single : c ∉ [',', ';', '[', ']', ':', '.', '$'])
    (arrow : c = '-' ∨ c = '=' → ∀ rest, text ≠ '>' :: rest) (offset : Nat) :
    readToken offset c text = .error (.unexpectedCharacter c offset) := by
  unfold readToken
  split
  case h_5 rest => exact absurd rfl (arrow (.inl rfl) rest)
  case h_6 rest => exact absurd rfl (arrow (.inr rfl) rest)
  case h_11 => rw [if_neg (by simp [bare])]
  all_goals simp at single

theorem readToken_colon (other : ∀ rest, text ≠ ':' :: rest) (offset : Nat) :
    readToken offset ':' text = readState offset text := by
  unfold readToken
  split
  case h_7 rest _ => exact absurd rfl (other rest)
  case h_8 => rfl
  all_goals contradiction

theorem readCall_malformed (unread : ∀ name rest, IsName name →
      text ≠ "fir.".toList ++ name.toList ++ "()".toList ++ rest) (offset : Nat) :
    readCall offset text =
      .error (.malformedCall (String.ofList ('$' :: text.takeWhile (!endsCall ·))) offset) := by
  unfold readCall
  split
  next more =>
    split
    next => rfl
    next name rest nonempty taken =>
      have isName := isName_of_takeIdentifier taken nonempty
      have whole := takeIdentifier_append more
      rw [taken] at whole
      refine absurd ?_ (unread (String.ofList name) rest isName)
      simp [← whole]
    next => rfl
  next => rfl

theorem not_separates_of_mem_call {name : String} (isName : IsName name) :
    ∀ c ∈ "fir.".toList ++ name.toList ++ "()".toList, ¬ Separates c := by
  intro c member
  simp only [List.mem_append] at member
  rcases member with (inStart | inName) | inEnd
  · rintro (rfl | rfl | rfl) <;> revert inStart <;> decide
  · exact not_separates_of_isIdentifierPart (isName.isIdentifierPart c inName)
  · rintro (rfl | rfl | rfl) <;> revert inEnd <;> decide

end Read

/-- What a reader gives if its text stands the distance further on and the tail
is put behind it. -/
def moved (distance : Nat) (tail : List Char)
    (result : Except GrammarError (Token × List Char)) : Except GrammarError (Token × List Char) :=
  (Prod.map id (· ++ tail) <$> result).mapError (GrammarError.shift distance)

section Moved

variable {text tail : List Char} (breaks : Breaks tail) (distance offset : Nat)
include breaks

theorem readState_moved : readState (distance + offset) (text ++ tail) =
    moved distance tail (readState offset text) := by
  simp only [readState, breaks.takeIdentifier_append]
  cases EventState.ofName? (String.ofList (takeIdentifier text).1) <;> rfl

theorem readModifier_moved : readModifier (distance + offset) (text ++ tail) =
    moved distance tail (readModifier offset text) := by
  simp only [readModifier, breaks.takeIdentifier_append]
  obtain ⟨name, rest⟩ := takeIdentifier text
  cases name <;> rfl

theorem readCall_moved : readCall (distance + offset) (text ++ tail) =
    moved distance tail (readCall offset text) := by
  by_cases calls : ∃ name rest, IsName name ∧
      text = "fir.".toList ++ name.toList ++ "()".toList ++ rest
  · obtain ⟨name, rest, isName, rfl⟩ := calls
    have read := readCall_name isName rest offset
    have readAll := readCall_name isName (rest ++ tail) (distance + offset)
    simp_all [moved]
  · have unread : ∀ name rest, IsName name →
        text ≠ "fir.".toList ++ name.toList ++ "()".toList ++ rest :=
      fun name rest isName same => calls ⟨name, rest, isName, same⟩
    rw [readCall_malformed unread, readCall_malformed, breaks.takeWhile_endsCall_append]
    · rfl
    · intro name rest isName same
      obtain ⟨inside, whole, _⟩ :=
        breaks.exists_of_append_eq (not_separates_of_mem_call isName) same
      exact unread name inside isName whole

/-- The first token is the same wherever the text stands and whatever a separator
puts behind it. -/
theorem readToken_moved (c : Char) (text : List Char) :
    readToken (distance + offset) c (text ++ tail) =
      moved distance tail (readToken offset c text) := by
  conv => rhs; unfold readToken
  split
  case h_8 other =>
    rw [readToken_colon, readState_moved breaks]
    intro rest same
    have bare : ∀ c ∈ [':'], ¬ Separates c := by
      rintro c member (rfl | rfl | rfl) <;> revert member <;> decide
    obtain ⟨inside, whole, _⟩ := breaks.exists_of_append_eq bare same
    exact other inside whole
  case h_9 => exact readModifier_moved breaks distance offset
  case h_10 => exact readCall_moved breaks distance offset
  case h_11 comma semicolon openBracket closeBracket colon dot dollar arrow doubleArrow _ =>
    split
    case isTrue start =>
      rw [readToken_of_isIdentifierStart start, breaks.takeWhile_append, breaks.dropWhile_append]
      rfl
    case isFalse bare =>
      apply readToken_unexpected
      · simpa using bare
      · simp only [List.mem_cons, List.not_mem_nil, or_false]
        rintro (same | same | same | same | same | same | same) <;> contradiction
      · intro either rest same
        have bare : ∀ c ∈ ['>'], ¬ Separates c := by
          rintro c member (rfl | rfl | rfl) <;> revert member <;> decide
        obtain ⟨inside, whole, _⟩ := breaks.exists_of_append_eq bare same
        rcases either with isHyphen | isEquals
        · exact arrow inside isHyphen whole
        · exact doubleArrow inside isEquals whole
  all_goals rfl

end Moved

theorem readToken_shift (distance offset : Nat) (c : Char) (text : List Char) :
    readToken (distance + offset) c text =
      (readToken offset c text).mapError (GrammarError.shift distance) := by
  have read := readToken_moved breaks_nil distance offset c text
  rw [List.append_nil] at read
  rw [read]
  cases readToken offset c text with
  | ok => simp [moved, Prod.map]
  | error fault => rfl

theorem readToken_append {tail : List Char} (breaks : Breaks tail) (offset : Nat) (c : Char)
    (text : List Char) :
    readToken offset c (text ++ tail) = Prod.map id (· ++ tail) <$> readToken offset c text := by
  have read := readToken_moved breaks 0 offset c text
  rw [Nat.zero_add] at read
  rw [read]
  cases readToken offset c text with
  | ok => rfl
  | error fault => cases fault <;> simp [moved, GrammarError.shift]

end Token

section Tokenize

variable {text tail : List Char}

theorem tokenizeFrom_of_unread {offset : Nat} {c : Char} {fault : GrammarError} (notSpace : c ≠ ' ')
    (unread : Token.readToken offset c text = .error fault) :
    tokenizeFrom offset (c :: text) = .error fault := by
  rw [tokenizeFrom, if_neg notSpace]
  split
  · rename_i found failed
    rw [unread] at failed
    cases failed
    rfl
  · rename_i found
    rw [unread] at found
    cases found

/-- Tokens and errors move with their text. -/
theorem tokenizeFrom_shift (distance offset : Nat) (text : List Char) :
    tokenizeFrom (distance + offset) text =
      (List.map (PlacedToken.shift distance) <$> tokenizeFrom offset text).mapError
        (GrammarError.shift distance) := by
  fun_induction tokenizeFrom offset text with
  | case1 offset => simp [tokenizeFrom]
  | case2 offset text ih => rw [tokenizeFrom, if_pos rfl, Nat.add_assoc, ih]
  | case3 offset c text notSpace fault unread =>
      have moved := Token.readToken_shift distance offset c text
      rw [unread, mapError_error] at moved
      rw [tokenizeFrom_of_unread notSpace moved]
      rfl
  | case4 offset c text notSpace token rest read ih =>
      have moved := Token.readToken_shift distance offset c text
      rw [read, mapError_ok] at moved
      rw [tokenizeFrom_cons notSpace moved, Nat.add_assoc, ih]
      cases tokenizeFrom (offset + token.width) rest <;> rfl

/-- Before a separator the text is read as if it ended there. -/
theorem tokenizeFrom_append (breaks : Breaks tail) (offset : Nat) (text : List Char) :
    tokenizeFrom offset (text ++ tail) = do
      let before ← tokenizeFrom offset text
      let behind ← tokenizeFrom (offset + byteLength text) tail
      return before ++ behind := by
  fun_induction tokenizeFrom offset text with
  | case1 offset =>
      rw [List.nil_append, byteLength_nil, Nat.add_zero, ok_bind]
      cases tokenizeFrom offset tail <;> rfl
  | case2 offset text ih =>
      have place : offset + byteLength (' ' :: text) = offset + 1 + byteLength text := by
        rw [byteLength_space, Nat.add_assoc]
      rw [List.cons_append, tokenizeFrom, if_pos rfl, ih, place]
  | case3 offset c text notSpace fault unread =>
      have readAll := Token.readToken_append breaks offset c text
      rw [unread, Except.map_error] at readAll
      rw [List.cons_append, tokenizeFrom_of_unread notSpace readAll, error_bind]
  | case4 offset c text notSpace token rest read ih =>
      have readAll := Token.readToken_append breaks offset c text
      rw [read, Except.map_ok] at readAll
      have place : offset + byteLength (c :: text) = offset + token.width + byteLength rest := by
        rw [Token.readToken_spelling read, byteLength_append, Token.width, Nat.add_assoc]
      rw [List.cons_append, tokenizeFrom_cons notSpace readAll, place]
      dsimp only [Prod.map, id]
      rw [ih]
      cases tokenizeFrom (offset + token.width) rest with
      | error fault => rfl
      | ok before =>
          cases tokenizeFrom (offset + token.width + byteLength rest) tail <;> rfl

end Tokenize

/-- The text is written in these tokens, wherever it stands. -/
def HasTokens (text : List Char) (tokens : List Token) : Prop :=
  ∃ placed, tokenizeFrom 0 text = .ok placed ∧ placed.map PlacedToken.token = tokens

namespace HasTokens

variable {text tail : List Char} {tokens : List Token}

theorem iff_tokenizeFrom (offset : Nat) (text : List Char) : HasTokens text tokens ↔
    ∃ placed, tokenizeFrom offset text = .ok placed ∧ placed.map PlacedToken.token = tokens := by
  have shifted := tokenizeFrom_shift offset 0 text
  rw [Nat.add_zero] at shifted
  simp only [HasTokens, shifted, mapError_eq_ok_iff, map_eq_ok_iff]
  constructor
  · rintro ⟨placed, tokenized, rfl⟩
    exact ⟨_, ⟨placed, tokenized, rfl⟩, by simp [PlacedToken.shift]⟩
  · rintro ⟨_, ⟨placed, tokenized, rfl⟩, rfl⟩
    exact ⟨placed, tokenized, by simp [PlacedToken.shift]⟩

theorem nil_iff : HasTokens [] tokens ↔ tokens = [] := by
  simp [HasTokens, tokenizeFrom, eq_comm]

theorem space_iff : HasTokens (' ' :: text) tokens ↔ HasTokens text tokens := by
  rw [iff_tokenizeFrom 1 text]
  simp only [HasTokens, tokenizeFrom, if_true]

theorem semicolon_iff : HasTokens (';' :: text) tokens ↔
    ∃ behind, HasTokens text behind ∧ tokens = .semicolon :: behind := by
  have read : Token.readToken 0 ';' text = .ok (.semicolon, text) := rfl
  simp only [iff_tokenizeFrom (0 + Token.semicolon.width) text]
  simp only [HasTokens, tokenizeFrom_cons (by decide) read]
  cases tokenizeFrom (0 + Token.semicolon.width) text with
  | error fault => simp [Except.map]
  | ok placed => simp [Except.map, eq_comm]

theorem append_iff (breaks : Breaks tail) : HasTokens (text ++ tail) tokens ↔
    ∃ before behind, HasTokens text before ∧ HasTokens tail behind ∧ tokens = before ++ behind := by
  simp only [iff_tokenizeFrom (0 + byteLength text) tail]
  simp only [HasTokens, tokenizeFrom_append breaks]
  cases tokenizeFrom 0 text with
  | error fault => simp
  | ok before =>
      cases tokenizeFrom (0 + byteLength text) tail with
      | error fault => simp
      | ok behind => simp [eq_comm]

end HasTokens

section Tokenize

/-- The token of a separator that stands at the offset. A space has none. -/
def separatorTokens (offset : Nat) : Char → List PlacedToken
  | ',' => [⟨.comma, offset⟩]
  | ';' => [⟨.semicolon, offset⟩]
  | _ => []

theorem tokenizeFrom_separator {c : Char} (separates : Separates c) (offset : Nat)
    (text : List Char) : tokenizeFrom offset (c :: text) =
      (separatorTokens offset c ++ ·) <$> tokenizeFrom (offset + 1) text := by
  rcases separates with rfl | rfl | rfl
  · rw [tokenizeFrom, if_pos rfl]
    cases tokenizeFrom (offset + 1) text <;> rfl
  · have read : Token.readToken offset ',' text = .ok (.comma, text) := rfl
    exact tokenizeFrom_cons (by decide) read
  · have read : Token.readToken offset ';' text = .ok (.semicolon, text) := rfl
    exact tokenizeFrom_cons (by decide) read

/-- At a separator a text is read in two parts. The second part is not read before the
first one is, and what it gives stands behind the first part and the separator. -/
theorem tokenize_separated {c : Char} (separates : Separates c) (before behind : String) :
    tokenize (before ++ String.singleton c ++ behind) =
      match tokenize before, tokenize behind with
      | .error fault, _ => .error fault
      | .ok _, .error fault => .error (fault.shift (before.utf8ByteSize + 1))
      | .ok tokens, .ok others =>
          .ok (tokens ++ separatorTokens before.utf8ByteSize c ++
            others.map (PlacedToken.shift (before.utf8ByteSize + 1))) := by
  have letters : (before ++ String.singleton c ++ behind).toList =
      before.toList ++ c :: behind.toList := by simp
  have shifted := tokenizeFrom_shift (before.utf8ByteSize + 1) 0 behind.toList
  rw [Nat.add_zero] at shifted
  rw [tokenize, letters, tokenizeFrom_append (breaks_cons separates), Nat.zero_add,
    ← utf8ByteSize_eq_byteLength, tokenizeFrom_separator separates, shifted, tokenize, tokenize]
  cases tokenizeFrom 0 before.toList with
  | error fault => rfl
  | ok tokens =>
      cases tokenizeFrom 0 behind.toList with
      | error fault => rfl
      | ok others => simp

/-- What is not a call ends at the comma, and an error behind a separator is moved. -/
theorem tokenize_separated_comma :
    (Separates ',' ∧ Separates ';') ∧
    tokenize "$fir.é()" = .error (.malformedCall "$fir.é()" 0) ∧
    tokenize ("$fir.é()" ++ String.singleton ',' ++ ".") =
      .error (.malformedCall "$fir.é()" 0) ∧
    tokenize ("a:ok" ++ String.singleton ',' ++ "b.") = .error (.missingModifier 6) ∧
    tokenize ("a:ok" ++ String.singleton ';' ++ "b") =
      .ok [⟨.identifier "a", 0⟩, ⟨.state .ok, 1⟩, ⟨.semicolon, 4⟩, ⟨.identifier "b", 5⟩] := by
  have comma : Separates ',' := .inr (.inl rfl)
  have semicolon : Separates ';' := .inr (.inr rfl)
  have malformed : tokenize "$fir.é()" = .error (.malformedCall "$fir.é()" 0) := by
    decide +kernel
  refine ⟨⟨comma, semicolon⟩, malformed, ?_, ?_, ?_⟩
  · rw [tokenize_separated comma, malformed]
  · rw [tokenize_separated comma]
    decide +kernel
  · rw [tokenize_separated semicolon]
    decide +kernel

end Tokenize

end EventBindings
