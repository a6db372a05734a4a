import EventBindings.Proofs.Grammar.KeyAgreement
import EventBindings.Proofs.Grammar.ReaderErrors
import EventBindings.Proofs.Token.Words

namespace EventBindings

open Text

/-!
Errors stand where the text stops to be a beginning of an accepted one. The tokens
before that place can be completed, and with the token at it they cannot.
-/

/-- Tokens that `parse` accepts. -/
def ExpressionTokens (tokens : List Token) : Prop :=
  ∃ text placed expressions, tokenize (Text.normalize text) = .ok placed ∧
    placed.map PlacedToken.token = tokens ∧ parse text = .ok expressions

/-- Tokens that `parseBindingKey` accepts. -/
def KeyTokens (tokens : List Token) : Prop :=
  ∃ key placed binding, tokenize key = .ok placed ∧
    placed.map PlacedToken.token = tokens ∧ parseBindingKey key = .ok binding

/-- The tokens before a place can be continued to accepted ones, but not with the token
that stands there. -/
structure LongestViable (accepted : List Token → Prop)
    (before behind : List PlacedToken) : Prop where
  viable : ∃ more, accepted (before.map PlacedToken.token ++ more)
  longest : ∀ next, behind.head? = some next →
    ∀ more, ¬ accepted (before.map PlacedToken.token ++ next.token :: more)

/-- Where the rest of a text begins: at its first token, or else at the end. -/
def startOf (endOffset : Nat) (rest : List PlacedToken) : Nat :=
  (rest.head?.map PlacedToken.offset).getD endOffset

/-- The tokens are cut at the offset, and this is the only place to do so. -/
structure CutAt (placed : List PlacedToken) (endOffset offset : Nat)
    (before behind : List PlacedToken) : Prop where
  whole : before ++ behind = placed
  start : startOf endOffset behind = offset
  only : ∀ other rest, other ++ rest = placed → startOf endOffset rest = offset → other = before

/-- The error is at the place where the tokens stop to be viable, or at the bracket
that is open there. -/
inductive Blames (accepted : List Token → Prop) (placed : List PlacedToken) (endOffset : Nat) :
    GrammarError → Prop
  | expected {offset : Nat} {before behind : List PlacedToken} (expectation : Expectation) :
      CutAt placed endOffset offset before behind → LongestViable accepted before behind →
      Blames accepted placed endOffset
        (.expected expectation (behind.head?.map PlacedToken.token) offset)
  | emptyExpression {offset : Nat} {before behind : List PlacedToken} :
      CutAt placed endOffset offset before behind → LongestViable accepted before behind →
      behind.head?.map PlacedToken.token = some .semicolon →
      Blames accepted placed endOffset (.emptyExpression offset)
  | unclosedBracket {offset : Nat} {before inside behind : List PlacedToken} :
      CutAt placed endOffset offset before (⟨.openBracket, offset⟩ :: (inside ++ behind)) →
      (∀ next ∈ inside, next.token.isBracket = false) →
      LongestViable accepted (before ++ ⟨.openBracket, offset⟩ :: inside) behind →
      Blames accepted placed endOffset (.unclosedBracket offset)

section Ordered

/-- The tokens stand one behind the other, and all before the end. -/
structure Ordered (placed : List PlacedToken) (endOffset : Nat) : Prop where
  ascending : placed.Pairwise fun first second => first.offset < second.offset
  within : ∀ next ∈ placed, next.offset < endOffset

variable {placed before behind : List PlacedToken} {endOffset : Nat}

theorem ordered_of_tokenize {text : String} (tokenized : tokenize text = .ok placed) :
    Ordered placed (byteLength text.toList) := by
  have tiles := tokenize_eq_ok_iff.mp tokenized
  have tiled := tokenizeFrom_eq_ok_iff.mp tokenized
  refine ⟨tiles.ordered.imp fun both => both.1, fun next member => ?_⟩
  obtain ⟨before, behind, split, place⟩ := tiled.exists_split next member
  have wide := (tiles.named next member).width_pos
  rw [split, byteLength_append, byteLength_append, place]
  rw [Token.width] at wide
  omega

/-- What begins further on begins at a greater offset. -/
theorem Ordered.startOf_lt (ordered : Ordered placed endOffset) {next : PlacedToken}
    (whole : before ++ next :: behind = placed) {rest : List PlacedToken}
    (later : rest <:+ behind) : next.offset < startOf endOffset rest := by
  subst whole
  cases rest with
  | nil => exact ordered.within next (by simp)
  | cons first rest =>
      have behindNext := (List.pairwise_cons.mp (List.pairwise_append.mp ordered.ascending).2.1).1
      exact behindNext first (later.subset List.mem_cons_self)

theorem Ordered.cutAt (ordered : Ordered placed endOffset) (whole : before ++ behind = placed) :
    CutAt placed endOffset (startOf endOffset behind) before behind := by
  refine ⟨whole, rfl, fun other rest same start => ?_⟩
  obtain ⟨between, parts, rests⟩ | ⟨between, parts, rests⟩ :=
    List.append_eq_append_iff.mp (same.trans whole.symm)
  · cases between with
    | nil => simpa using parts.symm
    | cons next between =>
        rw [rests] at start same
        have earlier := ordered.startOf_lt same (List.suffix_append between behind)
        exact absurd start (Nat.ne_of_lt earlier)
  · cases between with
    | nil => simpa using parts
    | cons next between =>
        rw [rests] at start whole
        have earlier := ordered.startOf_lt whole (List.suffix_append between rest)
        exact absurd start.symm (Nat.ne_of_lt earlier)

end Ordered

section Runs

variable {σ ρ : Type} {step : σ → PlacedToken → Except GrammarError σ}
  {finish : σ → Nat → Except GrammarError ρ} {initial : σ} {opened? : σ → Option Nat}
  {accepted : List Token → Prop} {placed before behind : List PlacedToken} {state : σ}

/-- The tokens, wherever they stand. -/
def placedAnywhere (tokens : List Token) : List PlacedToken :=
  tokens.map (⟨·, 0⟩)

@[simp] theorem map_token_placedAnywhere (tokens : List Token) :
    (placedAnywhere tokens).map PlacedToken.token = tokens := by
  simp [placedAnywhere, Function.comp_def]

/-- The accepted tokens are those that the reader reads to the end, wherever they stand. -/
def Recognizes (step : σ → PlacedToken → Except GrammarError σ)
    (finish : σ → Nat → Except GrammarError ρ) (initial : σ)
    (accepted : List Token → Prop) : Prop :=
  ∀ (placed : List PlacedToken) (endOffset : Nat), accepted (placed.map PlacedToken.token) ↔
    (∀ next ∈ placed, next.token.Named) ∧
      ∃ result, (placed.foldlM step initial >>= (finish · endOffset)) = .ok result

/-- The bracket that is open is among the tokens, with no other one behind it. -/
def OpensIn (opened : Option Nat) (before : List PlacedToken) : Prop :=
  ∀ opener, opened = some opener →
    ∃ front inside, before = front ++ ⟨.openBracket, opener⟩ :: inside ∧
      ∀ next ∈ inside, next.token.isBracket = false

theorem Pinpoints.opensIn_step (pinpoints : Pinpoints step finish opened?) {after : σ}
    {next : PlacedToken} (opens : OpensIn (opened? state) before)
    (stepped : step state next = .ok after) : OpensIn (opened? after) (before ++ [next]) := by
  intro opener isOpen
  have answers := pinpoints.answers state next
  rw [stepped] at answers
  cases answers opener isOpen with
  | inl opensHere => exact ⟨before, [], by rw [opensHere], nofun⟩
  | inr stays =>
      obtain ⟨bare, wasOpen⟩ := stays
      obtain ⟨front, inside, rfl, noBrackets⟩ := opens opener wasOpen
      refine ⟨front, inside ++ [next], by simp, ?_⟩
      exact List.forall_mem_append.mpr ⟨noBrackets, List.forall_mem_singleton.mpr bare⟩

theorem Pinpoints.opensIn_of_run (pinpoints : Pinpoints step finish opened?)
    (unopened : opened? initial = none) (run : before.foldlM step initial = .ok state) :
    OpensIn (opened? state) before := by
  have none : OpensIn (opened? initial) [] := by
    intro opener isOpen
    rw [unopened] at isOpen
    cases isOpen
  exact kept_of_run (fun state before => OpensIn (opened? state) before)
    pinpoints.opensIn_step none run

/-- A run that fails stops at a token, or it comes to the end and fails there. -/
theorem Pinpoints.exists_stop (pinpoints : Pinpoints step finish opened?) {endOffset : Nat}
    {fault : GrammarError}
    (unread : (placed.foldlM step initial >>= (finish · endOffset)) = .error fault) :
    ∃ before behind state, before ++ behind = placed ∧ before.foldlM step initial = .ok state ∧
      StopsWith (opened? state) (behind.head?.map PlacedToken.token) (startOf endOffset behind)
        fault ∧
      ∀ next, behind.head? = some next → step state next = .error fault := by
  obtain failed | ⟨state, run, failed⟩ := bind_eq_error_iff.mp unread
  · obtain ⟨before, next, behind, state, rfl, run, stepped⟩ := foldlM_eq_error_iff.mp failed
    have answers := pinpoints.answers state next
    rw [stepped] at answers
    refine ⟨before, next :: behind, state, rfl, run, answers, fun first same => ?_⟩
    cases same
    exact stepped
  · exact ⟨placed, [], state, List.append_nil placed, run, pinpoints.ends failed, nofun⟩

/-- Where a run stops, what has been read can be completed, and not with the next token. -/
theorem Pinpoints.longestViable (pinpoints : Pinpoints step finish opened?)
    (recognizes : Recognizes step finish initial accepted)
    (named : ∀ next ∈ before, next.token.Named) (run : before.foldlM step initial = .ok state)
    (stops : ∀ next, behind.head? = some next → ∃ fault, step state next = .error fault) :
    LongestViable accepted before behind where
  viable := by
    obtain ⟨more, after, moreNamed, leads, finishes⟩ := pinpoints.completes state
    obtain ⟨result, ended⟩ := finishes 0
    have all : ∀ next ∈ before ++ placedAnywhere more, next.token.Named := by
      refine List.forall_mem_append.mpr ⟨named, ?_⟩
      simpa [placedAnywhere] using moreNamed
    have read : ((before ++ placedAnywhere more).foldlM step initial >>= (finish · 0)) =
        .ok result := by
      rw [List.foldlM_append, run, ok_bind, leads _ (map_token_placedAnywhere more), ok_bind, ended]
    refine ⟨more, ?_⟩
    simpa using (recognizes (before ++ placedAnywhere more) 0).mpr ⟨all, result, read⟩
  longest := by
    intro next first more isAccepted
    obtain ⟨fault, stepped⟩ := stops next first
    have tokens : (before ++ next :: placedAnywhere more).map PlacedToken.token =
        before.map PlacedToken.token ++ next.token :: more := by simp
    rw [← tokens, recognizes _ 0] at isAccepted
    obtain ⟨_, result, read⟩ := isAccepted
    rw [List.foldlM_append, run, ok_bind, List.foldlM_cons, stepped] at read
    cases read

/-- A reader that pinpoints its errors blames the end of the longest viable beginning. -/
theorem Pinpoints.blames (pinpoints : Pinpoints step finish opened?)
    (unopened : opened? initial = none) (recognizes : Recognizes step finish initial accepted)
    (named : ∀ next ∈ placed, next.token.Named) {endOffset : Nat}
    (ordered : Ordered placed endOffset) {fault : GrammarError}
    (unread : (placed.foldlM step initial >>= (finish · endOffset)) = .error fault) :
    Blames accepted placed endOffset fault := by
  obtain ⟨before, behind, state, whole, run, stopped, failed⟩ := pinpoints.exists_stop unread
  have viable : LongestViable accepted before behind := by
    refine pinpoints.longestViable recognizes ?_ run fun next first => ⟨fault, failed next first⟩
    exact fun next member => named next (by simp [← whole, member])
  have cut := ordered.cutAt whole
  cases stopped with
  | expected expectation => exact .expected expectation cut viable
  | emptyExpression isSemicolon => exact .emptyExpression cut viable isSemicolon
  | unclosedBracket isOpen =>
      have opens := pinpoints.opensIn_of_run unopened run
      obtain ⟨front, inside, rfl, noBrackets⟩ := opens _ isOpen
      rw [List.append_assoc, List.cons_append] at whole
      exact .unclosedBracket (ordered.cutAt whole) noBrackets viable

end Runs

theorem expressionTokens_iff {tokens : List Token} : ExpressionTokens tokens ↔
    (∀ token ∈ tokens, token.Named) ∧ ∃ tree : ExpressionsTree, tree.tokens = tokens := by
  constructor
  · intro given
    obtain ⟨text, placed, expressions, tokenized, rfl, parsed⟩ := given
    obtain ⟨tree, ⟨_, tokenizedAgain, same⟩, _⟩ := parse_eq_ok_iff.mp parsed
    rw [tokenized] at tokenizedAgain
    cases tokenizedAgain
    exact ⟨named_of_tokenizeFrom tokenized, tree, same⟩
  · intro given
    obtain ⟨named, tree, rfl⟩ := given
    obtain ⟨text, placed, normal, tokenized, same⟩ := exists_text_of_tokens named
    have tokenizedNormal : tokenize (Text.normalize text) = .ok placed := by rw [normal, tokenized]
    have derives : tree.Derives text := ⟨placed, tokenizedNormal, same.symm⟩
    obtain ⟨expressions, parsed⟩ := exists_parse_of_derives derives
    exact ⟨text, placed, expressions, tokenizedNormal, same, parsed⟩

theorem keyTokens_iff {tokens : List Token} : KeyTokens tokens ↔
    (∀ token ∈ tokens, token.Named) ∧ ∃ tree : KeyTree, tree.tokens = tokens := by
  constructor
  · intro given
    obtain ⟨key, placed, binding, tokenized, rfl, parsed⟩ := given
    obtain ⟨_, tokenizedAgain, tree, same, _⟩ := parseBindingKey_eq_ok_iff.mp parsed
    rw [tokenized] at tokenizedAgain
    cases tokenizedAgain
    exact ⟨named_of_tokenizeFrom tokenized, tree, same⟩
  · intro given
    obtain ⟨named, tree, rfl⟩ := given
    obtain ⟨key, placed, _, tokenized, same⟩ := exists_text_of_tokens named
    exact ⟨key, placed, tree.binding, tokenized, same,
      parseBindingKey_eq_ok_iff.mpr ⟨placed, tokenized, tree, same.symm, rfl⟩⟩

theorem ExpressionReader.recognizes : Recognizes step finish {} ExpressionTokens := by
  intro placed endOffset
  rw [expressionTokens_iff, List.forall_mem_map]
  refine and_congr_right fun _ => ?_
  constructor
  · intro given
    obtain ⟨tree, tokens⟩ := given
    exact readExpressions_of_tree tokens
  · intro given
    obtain ⟨expressions, read⟩ := given
    obtain ⟨tree, _, tokens, _⟩ := tree_of_readExpressions read
    exact ⟨tree, tokens⟩

theorem KeyReader.recognizes : Recognizes step finish (.inEvents .start) KeyTokens := by
  intro placed endOffset
  rw [keyTokens_iff, List.forall_mem_map]
  refine and_congr_right fun _ => ?_
  constructor
  · intro given
    obtain ⟨tree, tokens⟩ := given
    exact ⟨tree.binding, readBindingKey_eq_ok_iff.mpr ⟨tree, tokens, rfl⟩⟩
  · intro given
    obtain ⟨binding, read⟩ := given
    obtain ⟨tree, tokens, _⟩ := readBindingKey_eq_ok_iff.mp read
    exact ⟨tree, tokens⟩

/-- Where the tokens of a text are no expressions, or no key, the error is at the end of their
longest viable beginning. -/
theorem parse_blames (text : String) :
    (∀ placed fault, tokenize (Text.normalize text) = .ok placed → parse text = .error fault →
      Text.normalize text = "" ∧ fault = .empty ∨
        Blames ExpressionTokens placed (byteLength (Text.normalize text).toList) fault) ∧
    ∀ placed fault, tokenize text = .ok placed → parseBindingKey text = .error fault →
      text = "" ∧ fault = .empty ∨ Blames KeyTokens placed (byteLength text.toList) fault := by
  constructor
  · intro placed fault tokenized unread
    by_cases empty : Text.normalize text = ""
    · simp only [parse, empty] at unread
      cases unread
      exact .inl ⟨empty, rfl⟩
    · have failed :
          readExpressions placed (byteLength (Text.normalize text).toList) = .error fault := by
        simpa [parse, empty, tokenized] using unread
      have named := List.forall_mem_map.mp (named_of_tokenizeFrom tokenized)
      exact .inr (ExpressionReader.pinpoints.blames rfl ExpressionReader.recognizes named
        (ordered_of_tokenize tokenized) failed)
  · intro placed fault tokenized unread
    by_cases empty : text = ""
    · subst empty
      cases unread
      exact .inl ⟨rfl, rfl⟩
    · have failed : readBindingKey placed (byteLength text.toList) = .error fault := by
        simpa [parseBindingKey, empty, tokenized] using unread
      have named := List.forall_mem_map.mp (named_of_tokenizeFrom tokenized)
      exact .inr (KeyReader.pinpoints.blames rfl KeyReader.recognizes named
        (ordered_of_tokenize tokenized) failed)

/-- The bracket at 2 is still open at the arrow, where a comma or a bracket could have followed. -/
example : parse "a,[b->t" = .error (.unclosedBracket 2) ∧
    parse "a,b c" = .error (.expected .separator (some (.identifier "c")) 4) := by
  decide +kernel

end EventBindings
