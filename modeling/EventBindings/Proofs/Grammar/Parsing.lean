import EventBindings.Proofs.Fallible
import EventBindings.Proofs.Grammar.ExpressionRun
import EventBindings.Proofs.Token.Spelling

namespace EventBindings

/-!
Which texts are expressions. Every tree is read to its end, whether it is greedy
or not, and so `parse` accepts exactly the texts whose tokens have a tree, and
gives the meaning of their greedy tree.
-/

section Sequences

variable {α σ : Type} {step : σ → PlacedToken → Except GrammarError σ} {separator : Token}
  {tokens : α → List Token} {due complete : σ → Prop}

/-- Items are read with separators between them, if each item is read where one
is due and a separator makes the next one due. -/
theorem leadsBy_separated
    (item : ∀ a state, due state → ∃ after, LeadsBy step state (tokens a) after ∧ complete after)
    (separates : ∀ state, complete state →
      ∃ after, LeadsBy step state [separator] after ∧ due after)
    {items : List α} (nonempty : items ≠ []) {state : σ} (isDue : due state) :
    ∃ after, LeadsBy step state (separated separator (items.map tokens)) after ∧
      complete after := by
  induction items generalizing state with
  | nil => exact absurd rfl nonempty
  | cons first items ih =>
      obtain ⟨middle, readFirst, isComplete⟩ := item first state isDue
      cases items with
      | nil => exact ⟨middle, by simpa using readFirst, isComplete⟩
      | cons second items =>
          obtain ⟨next, readSeparator, nextDue⟩ := separates middle isComplete
          obtain ⟨after, readRest, restComplete⟩ := ih (by simp) nextDue
          refine ⟨after, ?_, restComplete⟩
          have all := (readFirst.append readSeparator).append readRest
          simpa [separated_cons_cons] using all

end Sequences

namespace ExpressionReader

def BindingDue (reader : ExpressionReader) : Prop :=
  reader.place = .afterSemicolon ∨ ∃ finished, reader.place = .inEvents (.groupDue finished)

/-- The events of a binding are complete, and no action has been read. -/
def ActionMayFollow (reader : ExpressionReader) : Prop :=
  (∃ finished last allowed, reader.place = .inEvents (.inClause finished last allowed none)) ∨
    ∃ events name, reader.place = .afterTemplate events name

def BindingComplete (reader : ExpressionReader) : Prop :=
  reader.ActionMayFollow ∨ ∃ binding, reader.place = .afterAction binding

theorem step_moveTo_inEvents (reader : ExpressionReader) {events after : EventReader}
    {next : PlacedToken} (stepped : events.step next = .ok (.reading after)) :
    (reader.moveTo (.inEvents events)).step next = .ok (reader.moveTo (.inEvents after)) := by
  simp [step, stepEvents, moveTo, stepped, bind, Except.bind, pure, Except.pure]

theorem moveTo_of_place {reader : ExpressionReader} {place : ExpressionPlace}
    (same : reader.place = place) : reader.moveTo place = reader := by
  cases reader
  cases same
  rfl

theorem step_afterSemicolon {reader : ExpressionReader} {next : PlacedToken}
    (place : reader.place = .afterSemicolon) (other : next.token ≠ .semicolon) :
    reader.step next = (reader.moveTo (.inEvents .start)).step next := by
  obtain ⟨finished, bindings, _⟩ := reader
  obtain ⟨token, offset⟩ := next
  cases place
  cases token <;> first | rfl | exact absurd rfl other

theorem leadsBy_groups {reader : ExpressionReader} {groups : List GroupTree}
    (nonempty : groups ≠ []) (due : reader.BindingDue) :
    ∃ after, LeadsBy step reader (groupTokens groups) after ∧
      ∃ finished last allowed, after.place = .inEvents (.inClause finished last allowed none) := by
  rcases due with place | ⟨finished, place⟩
  · obtain ⟨before, last, allowed, _, inGroups⟩ := EventReader.leads_groups [] nonempty
    have read := inGroups.inside (step_moveTo_inEvents reader)
    refine ⟨reader.moveTo (.inEvents (.inClause before last allowed none)), ?_,
      before, last, allowed, rfl⟩
    intro placed all
    cases placed with
    | nil =>
        rw [← all] at inGroups
        cases inGroups
    | cons next placed =>
        have other : next.token ≠ .semicolon := by
          rw [← all] at inGroups
          obtain ⟨_, moved, _⟩ := inGroups next.offset
          intro same
          rw [same] at moved
          cases moved
        rw [List.foldlM_cons, step_afterSemicolon place other, ← List.foldlM_cons]
        exact read (next :: placed) all
  · obtain ⟨before, last, allowed, _, inGroups⟩ := EventReader.leads_groups finished nonempty
    have read := inGroups.inside (step_moveTo_inEvents reader)
    rw [moveTo_of_place place] at read
    exact ⟨reader.moveTo (.inEvents (.inClause before last allowed none)), read,
      before, last, allowed, rfl⟩

theorem leadsBy_template {reader : ExpressionReader} (template : Option String)
    (complete : ∃ finished last allowed,
      reader.place = .inEvents (.inClause finished last allowed none)) :
    ∃ after, LeadsBy step reader (optionalTokens .arrow .identifier template) after ∧
      after.ActionMayFollow := by
  cases template with
  | none => exact ⟨reader, LeadsBy.nil reader, .inl complete⟩
  | some name =>
      obtain ⟨finished, last, allowed, place⟩ := complete
      have arrow : LeadsBy step reader [.arrow] (reader.moveTo (.templateDue (finished ++ [last]))) := by
        apply LeadsBy.single
        intro offset
        simp only [step, place]
        cases allowed <;> rfl
      have named : LeadsBy step (reader.moveTo (.templateDue (finished ++ [last])))
          [.identifier name] (reader.moveTo (.afterTemplate (finished ++ [last]) name)) :=
        LeadsBy.single fun _ => rfl
      exact ⟨_, arrow.append named, .inr ⟨_, _, rfl⟩⟩

theorem leadsBy_action {reader : ExpressionReader} (action : Option ActionRef)
    (mayFollow : reader.ActionMayFollow) :
    ∃ after, LeadsBy step reader (optionalTokens .doubleArrow ActionRef.token action) after ∧
      after.BindingComplete := by
  cases action with
  | none => exact ⟨reader, LeadsBy.nil reader, .inl mayFollow⟩
  | some ref =>
      have arrow : ∃ events template, LeadsBy step reader [.doubleArrow]
          (reader.moveTo (.actionDue events template)) := by
        rcases mayFollow with ⟨finished, last, allowed, place⟩ | ⟨events, name, place⟩
        · refine ⟨finished ++ [last], none, LeadsBy.single fun offset => ?_⟩
          simp only [step, place]
          cases allowed <;> rfl
        · refine ⟨events, some name, LeadsBy.single fun offset => ?_⟩
          simp only [step, place]
      obtain ⟨events, template, arrow⟩ := arrow
      have acts : LeadsBy step (reader.moveTo (.actionDue events template)) [ref.token]
          (reader.moveTo (.afterAction ⟨events, template, some ref⟩)) := by
        apply LeadsBy.single
        intro offset
        cases ref <;> rfl
      exact ⟨_, arrow.append acts, .inr ⟨_, rfl⟩⟩

theorem leadsBy_binding (tree : BindingTree) (reader : ExpressionReader)
    (due : reader.BindingDue) :
    ∃ after, LeadsBy step reader tree.tokens after ∧ after.BindingComplete := by
  obtain ⟨inGroups, readGroups, complete⟩ := leadsBy_groups tree.nonempty due
  obtain ⟨middle, readTemplate, mayFollow⟩ := leadsBy_template tree.template complete
  obtain ⟨after, readAction, isComplete⟩ := leadsBy_action tree.action mayFollow
  exact ⟨after, readGroups.append (readTemplate.append readAction), isComplete⟩

theorem leadsBy_comma (reader : ExpressionReader) (complete : reader.BindingComplete) :
    ∃ after, LeadsBy step reader [.comma] after ∧ after.BindingDue := by
  rcases complete with (⟨finished, last, allowed, place⟩ | ⟨events, name, place⟩) | ⟨binding, place⟩
  · refine ⟨reader.moveTo (.inEvents (.groupDue (finished ++ [last]))),
      LeadsBy.single fun offset => ?_, .inr ⟨_, rfl⟩⟩
    simp only [step, place]
    cases allowed <;> rfl
  · refine ⟨reader.endBinding ⟨events, some name, none⟩, LeadsBy.single fun offset => ?_,
      .inr ⟨[], rfl⟩⟩
    simp only [step, place, stepEnded]
  · refine ⟨reader.endBinding binding, LeadsBy.single fun offset => ?_, .inr ⟨[], rfl⟩⟩
    simp only [step, place, stepEnded]

theorem leadsBy_semicolon (reader : ExpressionReader) (complete : reader.BindingComplete) :
    ∃ after, LeadsBy step reader [.semicolon] after ∧ after.place = .afterSemicolon := by
  rcases complete with (⟨finished, last, allowed, place⟩ | ⟨events, name, place⟩) | ⟨binding, place⟩
  · refine ⟨reader.endAtSemicolon ⟨finished ++ [last], none, none⟩,
      LeadsBy.single fun offset => ?_, rfl⟩
    simp only [step, place]
    cases allowed <;> rfl
  · refine ⟨reader.endAtSemicolon ⟨events, some name, none⟩, LeadsBy.single fun offset => ?_, rfl⟩
    simp only [step, place, stepEnded]
  · refine ⟨reader.endAtSemicolon binding, LeadsBy.single fun offset => ?_, rfl⟩
    simp only [step, place, stepEnded]

theorem finish_of_complete {reader : ExpressionReader} (complete : reader.BindingComplete)
    (offset : Nat) : ∃ expressions, reader.finish offset = .ok expressions := by
  rcases complete with (⟨finished, last, allowed, place⟩ | ⟨events, name, place⟩) | ⟨binding, place⟩
  all_goals
    simp only [finish, place]
    exact ⟨_, rfl⟩

theorem leadsBy_expression (tree : ExpressionTree) (reader : ExpressionReader)
    (due : reader.BindingDue) :
    ∃ after, LeadsBy step reader tree.tokens after ∧ after.BindingComplete :=
  leadsBy_separated leadsBy_binding leadsBy_comma tree.nonempty due

theorem finish_of_tree (tree : ExpressionsTree) (offset : Nat) :
    ∃ after expressions, LeadsBy step {} tree.tokens after ∧
      after.finish offset = .ok expressions := by
  have due : BindingDue {} := .inr ⟨[], rfl⟩
  have semicolon : ∀ reader : ExpressionReader, reader.BindingComplete →
      ∃ after, LeadsBy step reader [.semicolon] after ∧ after.BindingDue := by
    intro reader complete
    obtain ⟨after, read, place⟩ := leadsBy_semicolon reader complete
    exact ⟨after, read, .inl place⟩
  obtain ⟨last, readAll, complete⟩ :=
    leadsBy_separated leadsBy_expression semicolon tree.nonempty due
  obtain ⟨expressions, nonempty, semicolonAtEnd⟩ := tree
  cases semicolonAtEnd with
  | false =>
      obtain ⟨meaning, ended⟩ := finish_of_complete complete offset
      exact ⟨last, meaning, by simpa [ExpressionsTree.tokens] using readAll, ended⟩
  | true =>
      obtain ⟨after, readLast, place⟩ := leadsBy_semicolon last complete
      refine ⟨after, after.finished, readAll.append readLast, ?_⟩
      simp only [finish, place]

end ExpressionReader

section Reading

variable {placed : List PlacedToken} {endOffset : Nat} {expressions : List Expression}

theorem tree_of_readExpressions
    (read : readExpressions placed endOffset = .ok expressions) :
    ∃ tree : ExpressionsTree, tree.Greedy ∧ tree.tokens = placed.map PlacedToken.token ∧
      tree.meaning = expressions := by
  obtain ⟨after, run, ended⟩ := bind_eq_ok_iff.mp read
  have hasRead := read_of_run ExpressionReader.HasRead.step ExpressionReader.hasRead_start run
  rw [List.nil_append] at hasRead
  exact hasRead.finish ended

theorem readExpressions_of_tree {tree : ExpressionsTree}
    (tokens : tree.tokens = placed.map PlacedToken.token) :
    ∃ expressions, readExpressions placed endOffset = .ok expressions := by
  obtain ⟨after, expressions, leads, ended⟩ := ExpressionReader.finish_of_tree tree endOffset
  refine ⟨expressions, ?_⟩
  simp only [readExpressions, leads placed tokens.symm]
  exact ended

theorem readExpressions_eq_ok_iff :
    readExpressions placed endOffset = .ok expressions ↔
      ∃ tree : ExpressionsTree, tree.Greedy ∧ tree.tokens = placed.map PlacedToken.token ∧
        tree.meaning = expressions := by
  refine ⟨tree_of_readExpressions, ?_⟩
  intro given
  obtain ⟨tree, greedy, tokens, rfl⟩ := given
  obtain ⟨others, read⟩ : ∃ others, readExpressions placed endOffset = .ok others :=
    readExpressions_of_tree tokens
  obtain ⟨found, foundGreedy, foundTokens, rfl⟩ := tree_of_readExpressions read
  rw [ExpressionsTree.eq_of_tokens_eq greedy foundGreedy (tokens.trans foundTokens.symm)]
  exact read

end Reading

/-- The tree derives the tokens of the text in its normal spacing. -/
def ExpressionsTree.Derives (tree : ExpressionsTree) (text : String) : Prop :=
  ∃ placed, tokenize (Text.normalize text) = .ok placed ∧
    tree.tokens = placed.map PlacedToken.token

theorem ExpressionsTree.Derives.eq_of_greedy {left right : ExpressionsTree} {text : String}
    (leftDerives : left.Derives text) (rightDerives : right.Derives text)
    (leftGreedy : left.Greedy) (rightGreedy : right.Greedy) : left = right := by
  obtain ⟨placed, tokenized, leftTokens⟩ := leftDerives
  obtain ⟨_, sameText, rightTokens⟩ := rightDerives
  rw [tokenized] at sameText
  cases sameText
  exact ExpressionsTree.eq_of_tokens_eq leftGreedy rightGreedy (leftTokens.trans rightTokens.symm)

theorem parse_eq_ok_iff_readExpressions {text : String} {expressions : List Expression} :
    parse text = .ok expressions ↔
      ∃ placed, tokenize (Text.normalize text) = .ok placed ∧
        readExpressions placed (Text.byteLength (Text.normalize text).toList) =
          .ok expressions := by
  by_cases empty : Text.normalize text = ""
  · simp only [parse, empty, tokenize_empty]
    constructor
    · intro parsed
      cases parsed
    · intro given
      obtain ⟨placed, tokenized, read⟩ := given
      cases tokenized
      cases read
  · simp [parse, empty, bind_eq_ok_iff]

/-- A text is read as what its greedy tree means. -/
theorem parse_eq_ok_iff {text : String} {expressions : List Expression} :
    parse text = .ok expressions ↔
      ∃ tree : ExpressionsTree, tree.Derives text ∧ tree.Greedy ∧ tree.meaning = expressions := by
  rw [parse_eq_ok_iff_readExpressions]
  constructor
  · intro given
    obtain ⟨placed, tokenized, read⟩ := given
    obtain ⟨tree, greedy, tokens, meaning⟩ := readExpressions_eq_ok_iff.mp read
    exact ⟨tree, ⟨placed, tokenized, tokens⟩, greedy, meaning⟩
  · intro given
    obtain ⟨tree, ⟨placed, tokenized, tokens⟩, greedy, meaning⟩ := given
    exact ⟨placed, tokenized, readExpressions_eq_ok_iff.mpr ⟨tree, greedy, tokens, meaning⟩⟩

theorem exists_parse_of_derives {tree : ExpressionsTree} {text : String}
    (derives : tree.Derives text) : ∃ expressions, parse text = .ok expressions := by
  obtain ⟨placed, tokenized, tokens⟩ := derives
  obtain ⟨expressions, read⟩ := readExpressions_of_tree tokens
  exact ⟨expressions, parse_eq_ok_iff_readExpressions.mpr ⟨placed, tokenized, read⟩⟩

theorem addModifiersToLast_ne_nil {modifiers : List String} {clauses : List EventClause}
    (nonempty : clauses ≠ []) : addModifiersToLast modifiers clauses ≠ [] := by
  obtain ⟨others, last, rfl⟩ := exists_concat nonempty
  simp

theorem GroupTree.clauses_ne_nil (group : GroupTree) : group.clauses ≠ [] := by
  cases group with
  | single clause => simp [clauses]
  | bracketed _ nonempty => exact addModifiersToLast_ne_nil nonempty

theorem flatMap_clauses_ne_nil {groups : List GroupTree} (nonempty : groups ≠ []) :
    groups.flatMap GroupTree.clauses ≠ [] := by
  obtain ⟨others, group, rfl⟩ := exists_concat nonempty
  simp [group.clauses_ne_nil]

/-- No expression is without bindings, and no binding without events. -/
theorem ne_nil_of_parse {text : String} {expressions : List Expression}
    (parsed : parse text = .ok expressions) :
    expressions ≠ [] ∧ ∀ expression ∈ expressions, expression ≠ [] ∧
      ∀ binding ∈ expression, binding.events ≠ [] := by
  obtain ⟨tree, _, _, rfl⟩ := parse_eq_ok_iff.mp parsed
  refine ⟨by simp [ExpressionsTree.meaning, tree.nonempty], ?_⟩
  intro expression member
  obtain ⟨expressionTree, _, rfl⟩ := List.mem_map.mp member
  refine ⟨by simp [ExpressionTree.expression, expressionTree.nonempty], ?_⟩
  intro binding inExpression
  obtain ⟨bindingTree, _, rfl⟩ := List.mem_map.mp inExpression
  exact flatMap_clauses_ne_nil bindingTree.nonempty

/-- A text is read exactly if the grammar derives its tokens, by whatever tree.
Then it has one greedy tree, and what is read is the meaning of that one. -/
theorem parse_exact (text : String) :
    ((∃ expressions, parse text = .ok expressions) ↔
      ∃ tree : ExpressionsTree, tree.Derives text) ∧
    ((∃ tree : ExpressionsTree, tree.Derives text) ↔
      ∃ tree : ExpressionsTree, (tree.Derives text ∧ tree.Greedy) ∧
        ∀ other : ExpressionsTree, other.Derives text ∧ other.Greedy → other = tree) ∧
    (∀ expressions, parse text = .ok expressions ↔
      ∃ tree : ExpressionsTree, tree.Derives text ∧ tree.Greedy ∧ tree.meaning = expressions) ∧
    ∀ expressions, parse text = .ok expressions →
      expressions ≠ [] ∧ ∀ expression ∈ expressions, expression ≠ [] ∧
        ∀ binding ∈ expression, binding.events ≠ [] := by
  have accepted : (∃ expressions, parse text = .ok expressions) ↔
      ∃ tree : ExpressionsTree, tree.Derives text := by
    constructor
    · intro given
      obtain ⟨expressions, parsed⟩ := given
      obtain ⟨tree, derives, _, _⟩ := parse_eq_ok_iff.mp parsed
      exact ⟨tree, derives⟩
    · intro given
      obtain ⟨tree, derives⟩ := given
      exact exists_parse_of_derives derives
  refine ⟨accepted, ⟨?unique, ?derivable⟩, fun _ => parse_eq_ok_iff, fun _ => ne_nil_of_parse⟩
  case unique =>
    intro derivable
    obtain ⟨expressions, parsed⟩ := accepted.mpr derivable
    obtain ⟨tree, derives, greedy, _⟩ := parse_eq_ok_iff.mp parsed
    exact ⟨tree, ⟨derives, greedy⟩, fun other both =>
      both.1.eq_of_greedy derives both.2 greedy⟩
  case derivable =>
    intro given
    obtain ⟨tree, ⟨derives, _⟩, _⟩ := given
    exact ⟨tree, derives⟩

/-- A comma stands between events until a target is read, and then between
bindings. -/
example : parse "[a,b].x,c->t,d;" =
    .ok [[⟨[⟨"a", none, []⟩, ⟨"b", none, ["x"]⟩, ⟨"c", none, []⟩], some "t", none⟩,
      ⟨[⟨"d", none, []⟩], none, none⟩]] := by
  decide +kernel

end EventBindings
