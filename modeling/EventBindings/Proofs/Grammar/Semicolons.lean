import EventBindings.Compile
import EventBindings.Proofs.Grammar.Parsing
import EventBindings.Proofs.Token.Spacing

namespace EventBindings

/-!
Semicolons between expressions. The text on one side of a semicolon is read as if
the other side were not there. One semicolon may stand at the end, and it makes
no difference.
-/

namespace ExpressionReader

/-- The reader, had it finished these expressions before all others. -/
def prepend (earlier : List Expression) (reader : ExpressionReader) : ExpressionReader :=
  { reader with finished := earlier ++ reader.finished }

/-- Right behind the semicolon that ends the last of these expressions. -/
def behindSemicolon (finished : List Expression) : ExpressionReader :=
  { finished, place := .afterSemicolon }

section Prepend

variable (earlier : List Expression) (reader : ExpressionReader)

theorem stepEnded_prepend (binding : Binding) (next : PlacedToken) :
    (reader.prepend earlier).stepEnded binding next =
      prepend earlier <$> reader.stepEnded binding next := by
  obtain ⟨token, offset⟩ := next
  cases token <;> simp [stepEnded, prepend, endBinding, endAtSemicolon, endExpression]

theorem stepEvents_prepend (events : EventReader) (next : PlacedToken) :
    (reader.prepend earlier).stepEvents events next =
      prepend earlier <$> reader.stepEvents events next := by
  unfold stepEvents
  cases events.step next with
  | error fault => rfl
  | ok step =>
      cases step with
      | reading events => rfl
      | complete events =>
          obtain ⟨token, offset⟩ := next
          cases token <;> simp [prepend, endAtSemicolon, endExpression, moveTo]

/-- Finished expressions are never looked at again. -/
theorem step_prepend (next : PlacedToken) :
    (reader.prepend earlier).step next = prepend earlier <$> reader.step next := by
  have ended := fun binding => stepEnded_prepend earlier reader binding next
  have inEvents := fun events => stepEvents_prepend earlier reader events next
  obtain ⟨finished, bindings, place⟩ := reader
  obtain ⟨token, offset⟩ := next
  cases place with
  | inEvents events => exact inEvents events
  | afterSemicolon =>
      cases token with
      | semicolon => rfl
      | _ => exact inEvents .start
  | templateDue events => cases token <;> rfl
  | afterTemplate events template =>
      cases token with
      | doubleArrow => rfl
      | _ => exact ended ⟨events, some template, none⟩
  | actionDue events template => cases token <;> rfl
  | afterAction binding => exact ended binding

theorem finish_prepend (offset : Nat) :
    (reader.prepend earlier).finish offset = (earlier ++ ·) <$> reader.finish offset := by
  obtain ⟨finished, bindings, place⟩ := reader
  cases place with
  | inEvents events =>
      cases ended : events.finish offset <;> simp [finish, prepend, endExpression, ended]
  | _ => simp [finish, prepend, endExpression]

theorem foldlM_prepend (placed : List PlacedToken) :
    placed.foldlM step (reader.prepend earlier) =
      prepend earlier <$> placed.foldlM step reader := by
  induction placed generalizing reader with
  | nil => rfl
  | cons next placed ih =>
      rw [List.foldlM_cons, List.foldlM_cons, step_prepend]
      cases reader.step next with
      | error fault => rfl
      | ok after => exact ih after

end Prepend

variable {reader after : ExpressionReader}

/-- A semicolon may follow where the text may end, but for one place. -/
theorem step_semicolon_iff {offset : Nat} (endOffset : Nat) :
    reader.step ⟨.semicolon, offset⟩ = .ok after ↔
      reader.place ≠ .afterSemicolon ∧
        ∃ expressions, reader.finish endOffset = .ok expressions ∧
          after = behindSemicolon expressions := by
  obtain ⟨finished, bindings, place⟩ := reader
  cases place with
  | inEvents events =>
      cases events with
      | groupDue clauses | nameDue clauses opened =>
          simp [step, stepEvents, EventReader.step, finish, EventReader.finish]
      | inClause clauses last allowed opened =>
          cases allowed <;> cases opened <;>
            simp [step, stepEvents, EventReader.step, finish, EventReader.finish, endAtSemicolon,
              behindSemicolon, endExpression, eq_comm]
  | _ =>
      simp [step, stepEnded, finish, endAtSemicolon, behindSemicolon, endExpression, eq_comm]

/-- A reader stands behind a semicolon exactly if it has just read one. -/
theorem place_of_run {placed : List PlacedToken} (run : placed.foldlM step {} = .ok reader) :
    reader.place = .afterSemicolon ↔
      (placed.map PlacedToken.token).getLast? = some .semicolon := by
  constructor
  · intro place
    have hasRead := read_of_run HasRead.step hasRead_start run
    rw [List.nil_append] at hasRead
    generalize placed.map PlacedToken.token = tokens at hasRead
    cases hasRead with
    | inBinding finished greedy bindings targets read =>
        cases place
        cases read
    | afterSemicolon finished nonempty greedy =>
        obtain ⟨others, last, rfl⟩ := exists_concat nonempty
        simp [followed_concat]
  · intro ends
    rcases List.eq_nil_or_concat placed with rfl | ⟨others, last, same⟩
    · simp at ends
    · obtain ⟨token, offset⟩ := last
      rw [List.concat_eq_append] at same
      subst same
      rw [List.foldlM_append] at run
      obtain ⟨before, _, run⟩ := bind_eq_ok_iff.mp run
      obtain ⟨_, stepped, run⟩ := bind_eq_ok_iff.mp run
      have isSemicolon : token = .semicolon := by simpa using ends
      subst isSemicolon
      obtain ⟨_, expressions, _, rfl⟩ := (step_semicolon_iff 0).mp stepped
      cases run
      rfl

/-- Behind a semicolon tokens are read as if they began the text. -/
theorem run_behindSemicolon_iff (finished : List Expression) {placed : List PlacedToken}
    (nonempty : placed ≠ []) {endOffset : Nat} {expressions : List Expression} :
    (∃ after, placed.foldlM step (behindSemicolon finished) = .ok after ∧
        after.finish endOffset = .ok expressions) ↔
      ∃ later, readExpressions placed endOffset = .ok later ∧ expressions = finished ++ later := by
  cases placed with
  | nil => exact absurd rfl nonempty
  | cons next placed =>
      by_cases isSemicolon : next.token = .semicolon
      · obtain ⟨token, offset⟩ := next
        dsimp only at isSemicolon
        subst isSemicolon
        have refused : (behindSemicolon finished).step ⟨.semicolon, offset⟩ =
            .error (.emptyExpression offset) := rfl
        have refusedToo : ({} : ExpressionReader).step ⟨.semicolon, offset⟩ =
            .error (.expected .eventName (some .semicolon) offset) := rfl
        simp [readExpressions, refused, refusedToo]
      · have same : (next :: placed).foldlM step (behindSemicolon finished) =
            prepend finished <$> (next :: placed).foldlM step {} := by
          have start : (behindSemicolon finished).moveTo (.inEvents .start) =
              prepend finished {} := by simp [behindSemicolon, moveTo, prepend]
          rw [List.foldlM_cons, step_afterSemicolon rfl isSemicolon, start, ← List.foldlM_cons,
            foldlM_prepend]
        simp only [same, readExpressions, map_eq_ok_iff, bind_eq_ok_iff]
        constructor
        · rintro ⟨_, ⟨after, run, rfl⟩, ended⟩
          rw [finish_prepend] at ended
          obtain ⟨later, alone, rfl⟩ := map_eq_ok_iff.mp ended
          exact ⟨later, ⟨after, run, alone⟩, rfl⟩
        · rintro ⟨later, ⟨after, run, ended⟩, rfl⟩
          refine ⟨_, ⟨after, run, rfl⟩, ?_⟩
          rw [finish_prepend, ended, Except.map_ok]

end ExpressionReader

section Reading

variable {before behind : List PlacedToken} {offset : Nat} {expressions : List Expression}

theorem readExpressions_semicolon_iff (middle endOffset : Nat) :
    readExpressions (before ++ ⟨.semicolon, offset⟩ :: behind) endOffset = .ok expressions ↔
      ∃ earlier, readExpressions before middle = .ok earlier ∧
        (before.map PlacedToken.token).getLast? ≠ some .semicolon ∧
        (behind = [] ∧ expressions = earlier ∨
          ∃ later, readExpressions behind endOffset = .ok later ∧
            expressions = earlier ++ later) := by
  have run : readExpressions (before ++ ⟨.semicolon, offset⟩ :: behind) endOffset =
      .ok expressions ↔ ∃ reader start, before.foldlM ExpressionReader.step {} = .ok reader ∧
        reader.step ⟨.semicolon, offset⟩ = .ok start ∧
        ∃ after, behind.foldlM ExpressionReader.step start = .ok after ∧
          after.finish endOffset = .ok expressions := by
    simp only [readExpressions, List.foldlM_append, List.foldlM_cons, bind_assoc, bind_eq_ok_iff]
    constructor
    · rintro ⟨reader, runBefore, start, stepped, rest⟩
      exact ⟨reader, start, runBefore, stepped, rest⟩
    · rintro ⟨reader, start, runBefore, stepped, rest⟩
      exact ⟨reader, runBefore, start, stepped, rest⟩
  rw [run]
  constructor
  · rintro ⟨reader, start, runBefore, stepped, after, runBehind, ended⟩
    obtain ⟨place, earlier, endedBefore, rfl⟩ :=
      (ExpressionReader.step_semicolon_iff middle).mp stepped
    refine ⟨earlier, bind_eq_ok_iff.mpr ⟨reader, runBefore, endedBefore⟩,
      fun ends => place ((ExpressionReader.place_of_run runBefore).mpr ends), ?_⟩
    by_cases empty : behind = []
    · subst empty
      cases runBehind
      cases ended
      exact .inl ⟨rfl, rfl⟩
    · exact .inr ((ExpressionReader.run_behindSemicolon_iff earlier empty).mp
        ⟨after, runBehind, ended⟩)
  · rintro ⟨earlier, readBefore, noSemicolon, rest⟩
    obtain ⟨reader, runBefore, endedBefore⟩ := bind_eq_ok_iff.mp readBefore
    have place : reader.place ≠ .afterSemicolon :=
      fun place => noSemicolon ((ExpressionReader.place_of_run runBefore).mp place)
    refine ⟨reader, _, runBefore, (ExpressionReader.step_semicolon_iff middle).mpr
      ⟨place, earlier, endedBefore, rfl⟩, ?_⟩
    rcases rest with ⟨rfl, rfl⟩ | ⟨later, readBehind, rfl⟩
    · exact ⟨_, rfl, rfl⟩
    · have nonempty : behind ≠ [] := by
        rintro rfl
        cases readBehind
      exact (ExpressionReader.run_behindSemicolon_iff earlier nonempty).mpr
        ⟨later, readBehind, rfl⟩

theorem readExpressions_congr {placed others : List PlacedToken}
    (same : placed.map PlacedToken.token = others.map PlacedToken.token)
    (endOffset otherEnd : Nat) :
    readExpressions placed endOffset = .ok expressions ↔
      readExpressions others otherEnd = .ok expressions := by
  rw [readExpressions_eq_ok_iff, readExpressions_eq_ok_iff, same]

/-- What a text means depends on its tokens only, not on where they stand. -/
theorem parse_eq_ok_iff_hasTokens {text : String} : parse text = .ok expressions ↔
    ∃ tokens, HasTokens (Text.normalizeBlanks text.toList) tokens ∧
      readExpressions (placeFrom 0 tokens) 0 = .ok expressions := by
  have normalized : tokenize (Text.normalize text) =
      tokenizeFrom 0 (Text.normalizeBlanks text.toList) := by
    rw [tokenize, Text.normalize, String.toList_ofList]
  rw [parse_eq_ok_iff_readExpressions, normalized]
  constructor
  · rintro ⟨placed, tokenized, read⟩
    refine ⟨_, ⟨placed, tokenized, rfl⟩, ?_⟩
    exact (readExpressions_congr (map_token_placeFrom 0 _) 0 _).mpr read
  · rintro ⟨_, ⟨placed, tokenized, rfl⟩, read⟩
    exact ⟨placed, tokenized, (readExpressions_congr (map_token_placeFrom 0 _) 0 _).mp read⟩

end Reading

section Semicolon

variable {first second : String}

theorem parse_semicolon_iff {expressions : List Expression} :
    parse (first ++ ";" ++ second) = .ok expressions ↔
      ∃ earlier, parse first = .ok earlier ∧ Text.lastVisible? first ≠ some ';' ∧
        (Text.isAllBlank second = true ∧ expressions = earlier ∨
          ∃ later, parse second = .ok later ∧ expressions = earlier ++ later) := by
  have joined : (first ++ ";" ++ second).toList = first.toList ++ ';' :: second.toList := by simp
  have places (before behind : List Token) :
      (placeFrom 0 (before ++ .semicolon :: behind)).map PlacedToken.token =
        (placeFrom 0 before ++ ⟨.semicolon, 0⟩ :: placeFrom 0 behind).map PlacedToken.token := by
    simp
  simp only [parse_eq_ok_iff_hasTokens, joined, HasTokens.normalizeBlanks_semicolon_iff]
  constructor
  · rintro ⟨_, ⟨before, behind, inFirst, inSecond, rfl⟩, read⟩
    rw [readExpressions_congr (places before behind) 0 0, readExpressions_semicolon_iff 0] at read
    obtain ⟨earlier, readBefore, noSemicolon, rest⟩ := read
    rw [map_token_placeFrom, ne_eq, inFirst.getLast?_normalizeBlanks_iff] at noSemicolon
    refine ⟨earlier, ⟨before, inFirst, readBefore⟩, noSemicolon, ?_⟩
    rcases rest with ⟨empty, same⟩ | ⟨later, readBehind, same⟩
    · have noTokens : behind = [] := by simpa using congrArg (List.map PlacedToken.token) empty
      subst noTokens
      exact .inl ⟨HasTokens.nil_normalizeBlanks_iff.mp inSecond, same⟩
    · exact .inr ⟨later, ⟨behind, inSecond, readBehind⟩, same⟩
  · rintro ⟨earlier, ⟨before, inFirst, readBefore⟩, noSemicolon, rest⟩
    have noToken : ((placeFrom 0 before).map PlacedToken.token).getLast? ≠ some .semicolon := by
      rwa [map_token_placeFrom, ne_eq, inFirst.getLast?_normalizeBlanks_iff]
    rcases rest with ⟨blank, same⟩ | ⟨later, ⟨behind, inSecond, readBehind⟩, same⟩
    · refine ⟨_, ⟨before, [], inFirst, HasTokens.nil_normalizeBlanks_iff.mpr blank, rfl⟩, ?_⟩
      rw [readExpressions_congr (places before []) 0 0, readExpressions_semicolon_iff 0]
      exact ⟨earlier, readBefore, noToken, .inl ⟨rfl, same⟩⟩
    · refine ⟨_, ⟨before, behind, inFirst, inSecond, rfl⟩, ?_⟩
      rw [readExpressions_congr (places before behind) 0 0, readExpressions_semicolon_iff 0]
      exact ⟨earlier, readBefore, noToken, .inr ⟨later, readBehind, same⟩⟩

theorem compileExpression_of_parse {text : String} {expressions : List Expression}
    (parsed : parse text = .ok expressions) (actions : ActionMap) :
    compileExpression text actions = .ok (Resolver.compile { actions } expressions) := by
  simp [compileExpression, parsed]

theorem Resolver.compile_append (resolver : Resolver) (earlier later : List Expression) :
    resolver.compile (earlier ++ later) = resolver.compile earlier ++ resolver.compile later := by
  simp [compile]

end Semicolon

/-- A semicolon makes two texts of one. Together they are read exactly if the first
one is read by itself and does not end in a semicolon, and the second one is blank
or read by itself. Then the expressions of both follow one another, and so does
whatever they compile to under any map. So one semicolon may stand at the end and
changes nothing, but a second one may not. -/
theorem parse_semicolon (first second : String) :
    ((∃ expressions, parse (first ++ ";" ++ second) = .ok expressions) ↔
      (∃ earlier, parse first = .ok earlier) ∧ Text.lastVisible? first ≠ some ';' ∧
        (Text.isAllBlank second = true ∨ ∃ later, parse second = .ok later)) ∧
    (∀ expressions, parse (first ++ ";" ++ second) = .ok expressions →
      ∃ earlier, parse first = .ok earlier ∧
        (Text.isAllBlank second = true ∧ expressions = earlier ∨
          ∃ later, parse second = .ok later ∧ expressions = earlier ++ later)) ∧
    (∀ expressions, parse (first ++ ";" ++ second) = .ok expressions → ∀ actions,
      ∃ before out, compileExpression first actions = .ok before ∧
        compileExpression (first ++ ";" ++ second) actions = .ok out ∧
        (Text.isAllBlank second = true ∧ out = before ∨
          ∃ behind, compileExpression second actions = .ok behind ∧ out = before ++ behind)) ∧
    (∀ earlier, parse first = .ok earlier → Text.lastVisible? first ≠ some ';' →
      parse (first ++ ";") = .ok earlier ∧ ∀ actions,
        compileExpression (first ++ ";") actions = compileExpression first actions) ∧
    (Text.isAllBlank second = true →
      ∀ expressions, parse (first ++ ";" ++ second ++ ";") ≠ .ok expressions) := by
  refine ⟨?accepted, ?meaning, ?compiled, ?trailing, ?twice⟩
  case accepted =>
    simp only [parse_semicolon_iff]
    constructor
    · rintro ⟨expressions, earlier, parsed, noSemicolon, rest⟩
      refine ⟨⟨earlier, parsed⟩, noSemicolon, ?_⟩
      exact rest.imp And.left fun ⟨later, parsedToo, _⟩ => ⟨later, parsedToo⟩
    · rintro ⟨⟨earlier, parsed⟩, noSemicolon, blank | ⟨later, parsedToo⟩⟩
      · exact ⟨earlier, earlier, parsed, noSemicolon, .inl ⟨blank, rfl⟩⟩
      · exact ⟨_, earlier, parsed, noSemicolon, .inr ⟨later, parsedToo, rfl⟩⟩
  case meaning =>
    intro expressions parsed
    obtain ⟨earlier, parsedFirst, _, rest⟩ := parse_semicolon_iff.mp parsed
    exact ⟨earlier, parsedFirst, rest⟩
  case compiled =>
    intro expressions parsed actions
    obtain ⟨earlier, parsedFirst, _, rest⟩ := parse_semicolon_iff.mp parsed
    refine ⟨_, _, compileExpression_of_parse parsedFirst actions,
      compileExpression_of_parse parsed actions, ?_⟩
    rcases rest with ⟨blank, rfl⟩ | ⟨later, parsedSecond, rfl⟩
    · exact .inl ⟨blank, rfl⟩
    · exact .inr ⟨_, compileExpression_of_parse parsedSecond actions,
        Resolver.compile_append _ earlier later⟩
  case trailing =>
    intro earlier parsed noSemicolon
    have parsedAll : parse (first ++ ";") = .ok earlier := by
      have joined : first ++ ";" = first ++ ";" ++ "" := by simp
      rw [joined]
      exact parse_semicolon_iff.mpr ⟨earlier, parsed, noSemicolon, .inl ⟨rfl, rfl⟩⟩
    refine ⟨parsedAll, fun actions => ?_⟩
    rw [compileExpression_of_parse parsedAll, compileExpression_of_parse parsed]
  case twice =>
    intro blank expressions parsed
    have joined : first ++ ";" ++ second ++ ";" = first ++ ";" ++ second ++ ";" ++ "" := by simp
    rw [joined] at parsed
    obtain ⟨_, _, noSemicolon, _⟩ := parse_semicolon_iff.mp parsed
    rw [Text.lastVisible?_append_blank blank] at noSemicolon
    exact noSemicolon (Text.lastVisible?_append_semicolon first)

/-- Offsets count from the start of the whole text. -/
example : parse "a->t;\n ;b" = .error (.emptyExpression 8) := by
  decide +kernel

end EventBindings
