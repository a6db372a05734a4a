import EventBindings.Proofs.Token.Tiling

namespace EventBindings

open Text

/-!
Where no token can be read. A text that cannot be read has tokens up to a place
where none begins, and the error tells what stands at this place.
-/

/-- The longest name at the start of the text, empty if none begins there. -/
structure LongestName (text : List Char) (name : String) : Prop where
  begins : name.toList <+: text
  isName : name = "" ∨ IsName name
  longest : ∀ other, IsName other → other.toList <+: text → other.toList <+: name.toList

/-- At the offset, where the text stands, no token can be read for this reason. -/
inductive Unreadable (offset : Nat) : List Char → GrammarError → Prop
  | state {rest : List Char} {name : String} :
      rest.head? ≠ some ':' → LongestName rest name →
      (∀ outcome : EventState, outcome.name ≠ name) →
      Unreadable offset (':' :: rest) (.unknownState name offset)
  | modifier {rest : List Char} :
      (∀ name, IsName name → ¬ name.toList <+: rest) →
      Unreadable offset ('.' :: rest) (.missingModifier offset)
  | call {written rest : List Char} :
      written.head? = some '$' → (∀ c ∈ written, ¬ Separates c) → Breaks rest →
      (∀ name, IsName name → ¬ (callText name).toList <+: written ++ rest) →
      Unreadable offset (written ++ rest) (.malformedCall (String.ofList written) offset)
  | character {c : Char} {rest : List Char} :
      c ∉ [' ', ':', '.', '$'] →
      (∀ token : Token, token.Named → ¬ token.spelling.toList <+: c :: rest) →
      Unreadable offset (c :: rest) (.unexpectedCharacter c offset)

theorem longestName_takeIdentifier (text : List Char) :
    LongestName text (String.ofList (takeIdentifier text).1) where
  begins := by
    rw [String.toList_ofList]
    exact ⟨_, takeIdentifier_append text⟩
  isName := by
    by_cases empty : (takeIdentifier text).1 = []
    · exact .inl (by rw [empty])
    · exact .inr (isName_of_takeIdentifier rfl empty)
  longest := by
    intro other isName inText
    obtain ⟨rest, rfl⟩ := inText
    obtain ⟨c, part, letters⟩ := List.exists_cons_of_ne_nil isName.ne_nil
    have identifier : isIdentifier (c :: part) = true := letters ▸ isName
    simp only [isIdentifier, Bool.and_eq_true, List.all_eq_true] at identifier
    obtain ⟨start, parts⟩ := identifier
    rw [String.toList_ofList, letters, List.cons_append, takeIdentifier, if_pos start,
      List.takeWhile_append_of_pos parts, ← List.cons_append]
    exact List.prefix_append _ _

namespace Token

variable {offset : Nat} {text : List Char} {fault : GrammarError}

theorem unreadable_of_readState (other : ∀ rest, text ≠ ':' :: rest)
    (unread : readState offset text = .error fault) : Unreadable offset (':' :: text) fault := by
  simp only [readState] at unread
  split at unread
  · contradiction
  · rename_i unknown
    cases unread
    refine .state ?_ (longestName_takeIdentifier text) fun outcome same => ?_
    · intro first
      obtain ⟨rest, same⟩ := List.head?_eq_some_iff.mp first
      exact other rest same
    · rw [← same, EventState.ofName?_name] at unknown
      cases unknown

theorem unreadable_of_readModifier (unread : readModifier offset text = .error fault) :
    Unreadable offset ('.' :: text) fault := by
  have longest := (longestName_takeIdentifier text).longest
  simp only [readModifier] at unread
  split at unread
  · rename_i taken
    cases unread
    refine .modifier fun name isName begins => isName.ne_nil ?_
    simpa [taken] using longest name isName begins
  · contradiction

theorem endsCall_iff {c : Char} : endsCall c = true ↔ Separates c := by
  simp [endsCall, Separates, or_assoc]

theorem unreadable_of_readCall (unread : readCall offset text = .error fault) :
    Unreadable offset ('$' :: text) fault := by
  have noCall : ∀ name, IsName name → ¬ (callText name).toList <+: '$' :: text := by
    intro name isName begins
    obtain ⟨rest, same⟩ := begins
    have called : text = 'f' :: 'i' :: 'r' :: '.' :: (name.toList ++ '(' :: ')' :: rest) := by
      simpa [callText] using same.symm
    rw [called, readCall_name isName] at unread
    cases unread
  have others : ∀ name rest, IsName name →
      text ≠ "fir.".toList ++ name.toList ++ "()".toList ++ rest :=
    fun name rest isName same => noCall name isName ⟨rest, by simp [callText, same]⟩
  rw [readCall_malformed others] at unread
  cases unread
  have whole : '$' :: text =
      ('$' :: text.takeWhile (!endsCall ·)) ++ text.dropWhile (!endsCall ·) := by
    rw [List.cons_append, List.takeWhile_append_dropWhile]
  rw [whole] at noCall ⊢
  refine .call rfl ?_ ?_ noCall
  · intro c member separates
    cases List.mem_cons.mp member with
    | inl same =>
        subst same
        exact absurd (endsCall_iff.mpr separates) (by decide)
    | inr inText =>
        have kept := List.all_eq_true.mp List.all_takeWhile c inText
        simp [endsCall_iff.mpr separates] at kept
  · intro c first
    have stops := List.head?_dropWhile_not (!endsCall ·) text
    rw [first] at stops
    exact endsCall_iff.mp (by simpa using stops)

theorem unreadable_of_readToken {c : Char} (notSpace : c ≠ ' ')
    (unread : readToken offset c text = .error fault) : Unreadable offset (c :: text) fault := by
  unfold readToken at unread
  split at unread
  case h_8 other => exact unreadable_of_readState other unread
  case h_9 => exact unreadable_of_readModifier unread
  case h_10 => exact unreadable_of_readCall unread
  case h_11 comma semicolon openBracket closeBracket colon dot dollar arrow doubleArrow _ =>
    split at unread
    · contradiction
    · rename_i bare
      cases unread
      refine .character ?_ fun token named begins => ?_
      · simp only [List.mem_cons, List.not_mem_nil, or_false, not_or]
        exact ⟨notSpace, colon, dot, dollar⟩
      · obtain ⟨rest, same⟩ := begins
        cases token with
        | identifier name =>
            obtain ⟨start, part, letters⟩ := List.exists_cons_of_ne_nil named.ne_nil
            have identifier : isIdentifier (start :: part) = true := letters ▸ named
            rw [spelling, letters] at same
            cases same
            exact bare (Bool.and_eq_true_iff.mp identifier).1
        | arrow =>
            cases same
            exact arrow rest rfl rfl
        | doubleArrow =>
            cases same
            exact doubleArrow rest rfl rfl
        | _ =>
            simp only [spelling, callText, String.toList_append, List.append_assoc] at same
            cases same
            contradiction
  all_goals contradiction

end Token

variable {offset : Nat} {text : List Char} {fault : GrammarError}

/-- Before the place of the error there are tokens. -/
theorem exists_unreadable_of_tokenizeFrom (unread : tokenizeFrom offset text = .error fault) :
    ∃ before behind placed, text = before ++ behind ∧ Tiled offset before placed ∧ behind ≠ [] ∧
      Unreadable (offset + byteLength before) behind fault := by
  fun_induction tokenizeFrom offset text with
  | case1 => cases unread
  | case2 offset text ih =>
      obtain ⟨before, behind, placed, rfl, tiled, nonempty, reason⟩ := ih unread
      refine ⟨' ' :: before, behind, placed, rfl, .space tiled, nonempty, ?_⟩
      rwa [byteLength_space, ← Nat.add_assoc]
  | case3 offset c text notSpace found unreadHere =>
      cases unread
      exact ⟨[], c :: text, [], rfl, .nil offset, List.cons_ne_nil _ _,
        Token.unreadable_of_readToken notSpace unreadHere⟩
  | case4 offset c text notSpace token rest read ih =>
      have unreadBehind : tokenizeFrom (offset + token.width) rest = .error fault := by
        simpa [bind_eq_error_iff] using unread
      obtain ⟨before, behind, placed, rfl, tiled, nonempty, reason⟩ := ih unreadBehind
      have ends : token.EndsBefore before := by
        intro endsInName c first
        exact Token.endsBefore_of_readToken read endsInName c (by rw [List.head?_append, first]; rfl)
      refine ⟨token.spelling.toList ++ before, behind, _, ?_,
        .token (Token.named_of_readToken read) ends tiled, nonempty, ?_⟩
      · rw [Token.readToken_spelling read, List.append_assoc]
      · rwa [byteLength_append, ← Token.width, ← Nat.add_assoc]

/-- A text that cannot be read has tokens up to a character at which none can be read,
and the error tells why and points there. -/
theorem tokenize_error {text : String} (unread : tokenize text = .error fault) :
    ∃ before behind placed, text.toList = before ++ behind ∧
      tokenize (String.ofList before) = .ok placed ∧ Unreadable (byteLength before) behind fault ∧
      String.Pos.Raw.IsValid text ⟨byteLength before⟩ ∧ byteLength before < text.utf8ByteSize := by
  obtain ⟨before, behind, placed, split, tiled, nonempty, reason⟩ :=
    exists_unreadable_of_tokenizeFrom unread
  rw [Nat.zero_add] at reason
  refine ⟨before, behind, placed, split, ?_, reason, isValid_byteLength split, ?_⟩
  · rw [tokenize, String.toList_ofList]
    exact tokenizeFrom_eq_ok_iff.mpr tiled
  · obtain ⟨c, rest, rfl⟩ := List.exists_cons_of_ne_nil nonempty
    have wide := c.utf8Size_pos
    rw [utf8ByteSize_eq_byteLength, split, byteLength_append, byteLength_cons]
    omega

/-- The accented letter belongs to the text of the malformed call. -/
theorem tokenize_error_malformedCall :
    tokenize "a:ok $fir.é(), b" = .error (.malformedCall "$fir.é()" 5) ∧
      ∃ before behind placed, "a:ok $fir.é(), b".toList = before ++ behind ∧
        tokenize (String.ofList before) = .ok placed ∧
        Unreadable (byteLength before) behind (.malformedCall "$fir.é()" 5) ∧
        String.Pos.Raw.IsValid "a:ok $fir.é(), b" ⟨byteLength before⟩ ∧
        byteLength before < "a:ok $fir.é(), b".utf8ByteSize := by
  have unread : tokenize "a:ok $fir.é(), b" = .error (.malformedCall "$fir.é()" 5) := by
    decide +kernel
  exact ⟨unread, tokenize_error unread⟩

end EventBindings
