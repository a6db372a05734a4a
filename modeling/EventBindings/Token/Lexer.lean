import EventBindings.GrammarError

namespace EventBindings

open Text

/-!
From text to tokens. Spaces separate tokens and are skipped; every other
character belongs to a token. Names are read as far as they go.
-/

namespace Token

/-- The text of a malformed call reaches up to the next space, comma or
semicolon. -/
def endsCall (c : Char) : Bool :=
  c == ' ' || c == ',' || c == ';'

/-- Reads the outcome after a colon that stands at the offset. -/
def readState (offset : Nat) (text : List Char) : Except GrammarError (Token × List Char) :=
  let (name, rest) := takeIdentifier text
  match EventState.ofName? (String.ofList name) with
  | some outcome => .ok (.state outcome, rest)
  | none => .error (.unknownState (String.ofList name) offset)

/-- Reads the name after a dot that stands at the offset. -/
def readModifier (offset : Nat) (text : List Char) : Except GrammarError (Token × List Char) :=
  match takeIdentifier text with
  | ([], _) => .error (.missingModifier offset)
  | (name, rest) => .ok (.modifier (String.ofList name), rest)

/-- Reads the call whose dollar sign stands at the offset, before the text. -/
def readCall (offset : Nat) (text : List Char) : Except GrammarError (Token × List Char) :=
  let malformed :=
    .error (.malformedCall (String.ofList ('$' :: text.takeWhile (!endsCall ·))) offset)
  match text with
  | 'f' :: 'i' :: 'r' :: '.' :: more =>
      match takeIdentifier more with
      | ([], _) => malformed
      | (name, '(' :: ')' :: rest) => .ok (.call (String.ofList name), rest)
      | _ => malformed
  | _ => malformed

/-- Reads the token whose first character is given, and leaves the text behind
it. Its first character stands at the offset. -/
def readToken (offset : Nat) (c : Char) (text : List Char) :
    Except GrammarError (Token × List Char) :=
  match c, text with
  | ',', _ => .ok (.comma, text)
  | ';', _ => .ok (.semicolon, text)
  | '[', _ => .ok (.openBracket, text)
  | ']', _ => .ok (.closeBracket, text)
  | '-', '>' :: rest => .ok (.arrow, rest)
  | '=', '>' :: rest => .ok (.doubleArrow, rest)
  | ':', ':' :: rest => .ok (.doubleColon, rest)
  | ':', _ => readState offset text
  | '.', _ => readModifier offset text
  | '$', _ => readCall offset text
  | _, _ =>
      if isIdentifierStart c then
        .ok (.identifier (String.ofList (c :: text.takeWhile isIdentifierPart)),
          text.dropWhile isIdentifierPart)
      else .error (.unexpectedCharacter c offset)

theorem readState_spelling {offset : Nat} {text rest : List Char} {token : Token}
    (read : readState offset text = .ok (token, rest)) :
    ':' :: text = token.spelling.toList ++ rest := by
  simp only [readState] at read
  split at read
  · rename_i outcome found
    cases read
    simp only [spelling, EventState.name_of_ofName? found, String.toList_append,
      String.toList_ofList, List.append_assoc, takeIdentifier_append]
    rfl
  · contradiction

theorem readModifier_spelling {offset : Nat} {text rest : List Char} {token : Token}
    (read : readModifier offset text = .ok (token, rest)) :
    '.' :: text = token.spelling.toList ++ rest := by
  have whole := takeIdentifier_append text
  simp only [readModifier] at read
  split at read
  · contradiction
  · rename_i name after _ taken
    cases read
    rw [taken] at whole
    simp only [spelling, String.toList_append, String.toList_ofList, List.append_assoc, whole]
    rfl

theorem readCall_spelling {offset : Nat} {text rest : List Char} {token : Token}
    (read : readCall offset text = .ok (token, rest)) :
    '$' :: text = token.spelling.toList ++ rest := by
  simp only [readCall] at read
  split at read
  · rename_i more
    have whole := takeIdentifier_append more
    split at read
    · contradiction
    · rename_i name after _ taken
      cases read
      rw [taken] at whole
      simp only [spelling, callText, String.toList_append, String.toList_ofList,
        List.append_assoc, ← whole]
      rfl
    · contradiction
  · contradiction

/-- A token is read as it is spelled, and nothing is lost. -/
theorem readToken_spelling {offset : Nat} {c : Char} {text rest : List Char} {token : Token}
    (read : readToken offset c text = .ok (token, rest)) :
    c :: text = token.spelling.toList ++ rest := by
  unfold readToken at read
  split at read
  case h_8 => exact readState_spelling read
  case h_9 => exact readModifier_spelling read
  case h_10 => exact readCall_spelling read
  case h_11 =>
      split at read
      · cases read
        simp [spelling, List.takeWhile_append_dropWhile]
      · contradiction
  all_goals
    cases read
    rfl

theorem readState_length {offset : Nat} {text rest : List Char} {token : Token}
    (read : readState offset text = .ok (token, rest)) : rest.length ≤ text.length := by
  simp only [readState] at read
  split at read
  · cases read
    exact takeIdentifier_length text
  · contradiction

theorem readModifier_length {offset : Nat} {text rest : List Char} {token : Token}
    (read : readModifier offset text = .ok (token, rest)) : rest.length ≤ text.length := by
  have shorter := takeIdentifier_length text
  simp only [readModifier] at read
  split at read
  · contradiction
  · rename_i taken
    cases read
    simpa only [taken] using shorter

theorem readCall_length {offset : Nat} {text rest : List Char} {token : Token}
    (read : readCall offset text = .ok (token, rest)) : rest.length ≤ text.length := by
  simp only [readCall] at read
  split at read
  · rename_i more
    have shorter := takeIdentifier_length more
    split at read
    · contradiction
    · rename_i taken
      cases read
      simp only [taken, List.length_cons] at shorter ⊢
      omega
    · contradiction
  · contradiction

/-- Reading a token uses up at least its first character. -/
theorem readToken_length {offset : Nat} {c : Char} {text rest : List Char} {token : Token}
    (read : readToken offset c text = .ok (token, rest)) : rest.length ≤ text.length := by
  unfold readToken at read
  split at read
  case h_8 => exact readState_length read
  case h_9 => exact readModifier_length read
  case h_10 => exact readCall_length read
  case h_11 =>
      split at read
      · cases read
        exact (List.dropWhile_sublist _).length_le
      · contradiction
  all_goals
    cases read
    simp

end Token

/-- The tokens of a text whose first character stands at the offset. -/
def tokenizeFrom (offset : Nat) : List Char → Except GrammarError (List PlacedToken)
  | [] => .ok []
  | c :: text =>
      if c = ' ' then tokenizeFrom (offset + 1) text
      else match _read : Token.readToken offset c text with
        | .error fault => .error fault
        | .ok (token, rest) => do
            let tokens ← tokenizeFrom (offset + token.width) rest
            return ⟨token, offset⟩ :: tokens
termination_by text => text.length
decreasing_by
  · simp
  · have shorter := Token.readToken_length _read
    simp only [List.length_cons]
    omega

/-- The tokens of a text, in order, or the first place where none can be
read. -/
def tokenize (text : String) : Except GrammarError (List PlacedToken) :=
  tokenizeFrom 0 text.toList

end EventBindings
