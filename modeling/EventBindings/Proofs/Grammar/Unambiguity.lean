import EventBindings.Proofs.Grammar.Tree

namespace EventBindings

/-!
Tokens have at most one greedy tree. Each kind of tree tells where its tokens
end, provided that what stands behind them cannot continue it, so trees can be
taken off a list of tokens one after the other.
-/

/-- The tokens of an item end where they must, before anything that may follow
it. -/
def SelfDelimiting {α : Type} (tokens : α → List Token) (follows : α → List Token → Prop) : Prop :=
  ∀ ⦃left right : α⦄ ⦃leftRest rightRest : List Token⦄,
    follows left leftRest → follows right rightRest →
    tokens left ++ leftRest = tokens right ++ rightRest → left = right ∧ leftRest = rightRest

/-- What may follow items with separators between them: each item is followed
by what may follow it, and no further item comes. -/
structure SequenceFollows {α : Type} (separator : Token) (tokens : α → List Token)
    (follows : α → List Token → Prop) (items : List α) (rest : List Token) : Prop where
  nonempty : items ≠ []
  inner : ∀ item ∈ items.dropLast, ∀ more, follows item (separator :: more)
  last : ∀ item, items.getLast? = some item → follows item rest
  ended : ∀ item more, rest ≠ separator :: (tokens item ++ more)

variable {α : Type} {separator : Token} {tokens : α → List Token}
  {follows : α → List Token → Prop}

theorem SequenceFollows.tail {first second : α} {items : List α} {rest : List Token}
    (after : SequenceFollows separator tokens follows (first :: second :: items) rest) :
    SequenceFollows separator tokens follows (second :: items) rest where
  nonempty := by simp
  inner item member := after.inner item (by simp [member])
  last item found := after.last item (by simpa using found)
  ended := after.ended

theorem separated_map_cons_cons (first second : α) (items : List α) (rest : List Token) :
    separated separator ((first :: second :: items).map tokens) ++ rest =
      tokens first ++ separator :: (separated separator ((second :: items).map tokens) ++ rest) := by
  simp [separated_cons_cons]

/-- The tokens of one item more are those of that item and others. -/
theorem separated_map_eq_append (separator : Token) (tokens : α → List Token) (first : α)
    (items : List α) (rest : List Token) :
    ∃ more, separated separator ((first :: items).map tokens) ++ rest = tokens first ++ more := by
  cases items with
  | nil => exact ⟨rest, by simp⟩
  | cons second items => exact ⟨_, separated_map_cons_cons first second items rest⟩

theorem separated_map_singleton (item : α) :
    separated separator ([item].map tokens) = tokens item :=
  separated_singleton separator (tokens item)

/-- A sequence cannot end where another one goes on. -/
theorem SequenceFollows.ne_cons {first : α} {items : List α} {last : α} {rest more : List Token}
    (after : SequenceFollows separator tokens follows [last] rest) :
    rest ≠ separator :: (separated separator ((first :: items).map tokens) ++ more) := by
  obtain ⟨others, parts⟩ := separated_map_eq_append separator tokens first items more
  rw [parts]
  exact after.ended first others

theorem SelfDelimiting.separated (delimiting : SelfDelimiting tokens follows) :
    SelfDelimiting (fun items => separated separator (items.map tokens))
      (SequenceFollows separator tokens follows) := by
  intro left
  induction left with
  | nil => exact fun _ _ _ after => absurd rfl after.nonempty
  | cons first left ih =>
      intro right leftRest rightRest leftAfter rightAfter same
      dsimp only at same
      cases right with
      | nil => exact absurd rfl rightAfter.nonempty
      | cons other right =>
          cases left with
          | nil =>
              have leftLast : follows first leftRest := leftAfter.last first rfl
              rw [separated_map_singleton] at same
              cases right with
              | nil =>
                  rw [separated_map_singleton] at same
                  obtain ⟨rfl, rests⟩ := delimiting leftLast (rightAfter.last other rfl) same
                  exact ⟨rfl, rests⟩
              | cons next right =>
                  rw [separated_map_cons_cons] at same
                  have rightInner := rightAfter.inner other (by simp)
                  exact absurd (delimiting leftLast (rightInner _) same).2 leftAfter.ne_cons
          | cons second left =>
              rw [separated_map_cons_cons] at same
              have leftInner := leftAfter.inner first (by simp)
              cases right with
              | nil =>
                  rw [separated_map_singleton] at same
                  have rightLast : follows other rightRest := rightAfter.last other rfl
                  exact absurd (delimiting (leftInner _) rightLast same).2.symm rightAfter.ne_cons
              | cons next right =>
                  rw [separated_map_cons_cons] at same
                  have rightInner := rightAfter.inner other (by simp)
                  obtain ⟨rfl, rests⟩ := delimiting (leftInner _) (rightInner _) same
                  have tails := ih leftAfter.tail rightAfter.tail (List.cons.inj rests).2
                  exact ⟨by rw [tails.1], tails.2⟩

/-- No token of a kind stands first. -/
def Stops (kind : Token → Bool) (rest : List Token) : Prop :=
  ∀ token, rest.head? = some token → kind token = false

@[simp] theorem stops_nil (kind : Token → Bool) : Stops kind [] := by
  simp [Stops]

@[simp] theorem stops_cons {kind : Token → Bool} {token : Token} {rest : List Token} :
    Stops kind (token :: rest) ↔ kind token = false := by
  simp [Stops]

theorem Stops.mono {kind wider : Token → Bool} {rest : List Token}
    (stops : Stops wider rest) (includes : ∀ token, kind token = true → wider token = true) :
    Stops kind rest := by
  intro token found
  have outside := stops token found
  cases inside : kind token with
  | false => rfl
  | true => exact absurd (includes token inside) (by simp [outside])

namespace Token

/-- A token that continues a clause before it. -/
def extendsClause : Token → Bool
  | state _ | modifier _ => true
  | _ => false

/-- A token that continues a clause or a target before it. -/
def extendsBinding : Token → Bool
  | state _ | modifier _ | arrow | doubleArrow => true
  | _ => false

/-- A token that continues an expression before it. -/
def extendsExpression : Token → Bool
  | comma => true
  | token => token.extendsBinding

end Token

theorem modifiers_selfDelimiting :
    SelfDelimiting (fun modifiers : List String => modifiers.map Token.modifier)
      (fun _ => Stops Token.extendsClause) := by
  intro left
  induction left with
  | nil =>
      intro right leftRest rightRest leftStops rightStops same
      cases right with
      | nil => exact ⟨rfl, same⟩
      | cons name right =>
          rw [show leftRest = _ from same] at leftStops
          simp [Token.extendsClause] at leftStops
  | cons name left ih =>
      intro right leftRest rightRest leftStops rightStops same
      cases right with
      | nil =>
          rw [show rightRest = _ from same.symm] at rightStops
          simp [Token.extendsClause] at rightStops
      | cons other right =>
          simp only [List.map_cons, List.cons_append, List.cons.injEq, Token.modifier.injEq] at same
          obtain ⟨rfl, rest⟩ := same
          obtain ⟨rfl, rests⟩ := ih leftStops rightStops rest
          exact ⟨rfl, rests⟩

theorem stops_extendsClause_of_modifiers_eq {modifiers : List String} {outcome : EventState}
    {rest more : List Token} (stops : Stops Token.extendsClause rest) :
    modifiers.map Token.modifier ++ rest ≠ .state outcome :: more := by
  intro same
  cases modifiers with
  | nil =>
      rw [show rest = _ from same] at stops
      simp [Token.extendsClause] at stops
  | cons name modifiers => simp at same

theorem EventClause.selfDelimiting :
    SelfDelimiting EventClause.tokens (fun _ => Stops Token.extendsClause) := by
  intro left right leftRest rightRest leftStops rightStops same
  obtain ⟨leftName, leftState, leftModifiers⟩ := left
  obtain ⟨rightName, rightState, rightModifiers⟩ := right
  simp only [tokens, List.cons_append, List.cons.injEq, Token.identifier.injEq,
    List.append_assoc] at same
  obtain ⟨rfl, same⟩ := same
  cases leftState with
  | none =>
      cases rightState with
      | none =>
          obtain ⟨rfl, rests⟩ := modifiers_selfDelimiting leftStops rightStops same
          exact ⟨rfl, rests⟩
      | some outcome => exact absurd same (stops_extendsClause_of_modifiers_eq leftStops)
  | some outcome =>
      cases rightState with
      | none => exact absurd same.symm (stops_extendsClause_of_modifiers_eq rightStops)
      | some other =>
          simp only [Option.toList_some, List.map_cons, List.map_nil, List.cons_append,
            List.nil_append, List.cons.injEq, Token.state.injEq] at same
          obtain ⟨rfl, same⟩ := same
          obtain ⟨rfl, rests⟩ := modifiers_selfDelimiting leftStops rightStops same
          exact ⟨rfl, rests⟩

theorem clauses_followed_by_bracket {clauses : List EventClause} {rest : List Token}
    (nonempty : clauses ≠ []) :
    SequenceFollows .comma EventClause.tokens (fun _ => Stops Token.extendsClause) clauses
      (.closeBracket :: rest) where
  nonempty := nonempty
  inner := by simp [Token.extendsClause]
  last := by simp [Token.extendsClause]
  ended := by simp

theorem GroupTree.selfDelimiting :
    SelfDelimiting GroupTree.tokens (fun _ => Stops Token.extendsClause) := by
  intro left right leftRest rightRest leftStops rightStops same
  cases left with
  | single clause =>
      cases right with
      | single other =>
          obtain ⟨rfl, rests⟩ := EventClause.selfDelimiting leftStops rightStops same
          exact ⟨rfl, rests⟩
      | bracketed => simp [tokens, EventClause.tokens] at same
  | bracketed clauses nonempty modifiers =>
      cases right with
      | single => simp [tokens, EventClause.tokens] at same
      | bracketed others otherNonempty otherModifiers =>
          simp only [tokens, List.cons_append, List.append_assoc, List.cons.injEq, true_and] at same
          obtain ⟨rfl, rest⟩ := EventClause.selfDelimiting.separated
            (clauses_followed_by_bracket nonempty) (clauses_followed_by_bracket otherNonempty) same
          obtain ⟨rfl, rests⟩ := modifiers_selfDelimiting leftStops rightStops
            (List.cons.inj rest).2
          exact ⟨rfl, rests⟩

theorem groups_follow {groups : List GroupTree} {rest : List Token} (nonempty : groups ≠ [])
    (stops : Stops Token.extendsClause rest) (ended : rest.head? ≠ some .comma) :
    SequenceFollows .comma GroupTree.tokens (fun _ => Stops Token.extendsClause) groups rest where
  nonempty := nonempty
  inner := by simp [Token.extendsClause]
  last _ _ := stops
  ended item more same := ended (by simp [same])

theorem optional_selfDelimiting {opener : Token} {token : α → Token}
    (injective : ∀ left right, token left = token right → left = right) :
    SelfDelimiting (optionalTokens opener token) (fun _ rest => rest.head? ≠ some opener) := by
  intro left right leftRest rightRest leftStops rightStops same
  cases left with
  | none =>
      cases right with
      | none => exact ⟨rfl, same⟩
      | some value => exact absurd (by simp [show leftRest = _ from same, optionalTokens]) leftStops
  | some value =>
      cases right with
      | none =>
          exact absurd (by simp [show rightRest = _ from same.symm, optionalTokens]) rightStops
      | some other =>
          simp only [optionalTokens, List.cons_append, List.nil_append, List.cons.injEq,
            true_and] at same
          exact ⟨by rw [injective value other same.1], same.2⟩

theorem ActionRef.token_inj {left right : ActionRef} (same : left.token = right.token) :
    left = right := by
  cases left <;> cases right <;> simp_all [ActionRef.token]

namespace BindingTree

/-- What may follow a binding. A comma may only follow a target. -/
def Follows (tree : BindingTree) (rest : List Token) : Prop :=
  Stops Token.extendsBinding rest ∧ (tree.hasTarget = false → rest.head? ≠ some .comma)

theorem groups_follow_target {tree : BindingTree} {rest : List Token} (after : tree.Follows rest) :
    SequenceFollows .comma GroupTree.tokens (fun _ => Stops Token.extendsClause) tree.groups
      (tree.targetTokens ++ rest) := by
  obtain ⟨groups, nonempty, template, action⟩ := tree
  obtain ⟨stops, ended⟩ := after
  have clauseStops : Stops Token.extendsClause rest :=
    stops.mono (by intro token; cases token <;> simp [Token.extendsClause, Token.extendsBinding])
  apply groups_follow nonempty
  · cases template <;> cases action <;>
      simp [targetTokens, optionalTokens, Token.extendsClause, clauseStops]
  · cases template <;> cases action <;> simp [targetTokens, optionalTokens]
    exact ended rfl

theorem selfDelimiting : SelfDelimiting BindingTree.tokens BindingTree.Follows := by
  intro left right leftRest rightRest leftAfter rightAfter same
  simp only [tokens, groupTokens, List.append_assoc] at same
  obtain ⟨groups, targets⟩ := GroupTree.selfDelimiting.separated
    (groups_follow_target leftAfter) (groups_follow_target rightAfter) same
  simp only [targetTokens, List.append_assoc] at targets
  have actionFollows : ∀ {tree : BindingTree} {rest : List Token}, tree.Follows rest →
      rest.head? ≠ some .doubleArrow := fun after found =>
    absurd (after.1 _ found) (by simp [Token.extendsBinding])
  have templateFollows : ∀ {tree : BindingTree} {rest : List Token}, tree.Follows rest →
      (optionalTokens .doubleArrow ActionRef.token tree.action ++ rest).head? ≠ some .arrow := by
    intro tree rest after found
    cases action : tree.action with
    | none =>
        have stops := after.1 .arrow (by simpa [action, optionalTokens] using found)
        simp [Token.extendsBinding] at stops
    | some ref => simp [action, optionalTokens] at found
  obtain ⟨templates, actions⟩ := optional_selfDelimiting (fun _ _ same => Token.identifier.inj same)
    (templateFollows leftAfter) (templateFollows rightAfter) targets
  obtain ⟨actions, rests⟩ := optional_selfDelimiting (fun _ _ same => ActionRef.token_inj same)
    (actionFollows leftAfter) (actionFollows rightAfter) actions
  cases left
  cases right
  simp_all

end BindingTree

theorem GroupTree.tokens_ne_nil (tree : GroupTree) : tree.tokens ≠ [] := by
  cases tree <;> simp [tokens, EventClause.tokens]

theorem separated_map_ne_nil {items : List α} (nonempty : items ≠ [])
    (tokens_ne_nil : ∀ item, tokens item ≠ []) : separated separator (items.map tokens) ≠ [] := by
  cases items with
  | nil => exact absurd rfl nonempty
  | cons first items =>
      obtain ⟨more, parts⟩ := separated_map_eq_append separator tokens first items []
      rw [List.append_nil] at parts
      rw [parts]
      simp [tokens_ne_nil first]

theorem BindingTree.tokens_ne_nil (tree : BindingTree) : tree.tokens ≠ [] := by
  have groups : groupTokens tree.groups ≠ [] :=
    separated_map_ne_nil tree.nonempty GroupTree.tokens_ne_nil
  simp [tokens, groups]

theorem ExpressionTree.tokens_ne_nil (tree : ExpressionTree) : tree.tokens ≠ [] :=
  separated_map_ne_nil tree.nonempty BindingTree.tokens_ne_nil

namespace ExpressionTree

/-- What may follow a greedy expression. -/
def Follows (tree : ExpressionTree) (rest : List Token) : Prop :=
  tree.Greedy ∧ Stops Token.extendsExpression rest

theorem bindings_follow {tree : ExpressionTree} {rest : List Token} (after : tree.Follows rest) :
    SequenceFollows .comma BindingTree.tokens BindingTree.Follows tree.bindings rest := by
  obtain ⟨greedy, stops⟩ := after
  refine ⟨tree.nonempty, ?inner, ?last, ?ended⟩
  case inner =>
    intro binding member more
    exact ⟨by simp [Token.extendsBinding], by simp [greedy binding member]⟩
  case last =>
    intro binding _
    have bindingStops : Stops Token.extendsBinding rest := by
      apply stops.mono
      intro token
      cases token <;> simp [Token.extendsBinding, Token.extendsExpression]
    refine ⟨bindingStops, ?_⟩
    intro _ found
    simpa [Token.extendsExpression] using stops .comma found
  case ended =>
    intro binding more same
    simpa [Token.extendsExpression] using stops .comma (by simp [same])

theorem selfDelimiting : SelfDelimiting ExpressionTree.tokens ExpressionTree.Follows := by
  intro left right leftRest rightRest leftAfter rightAfter same
  obtain ⟨bindings, rests⟩ := BindingTree.selfDelimiting.separated
    (bindings_follow leftAfter) (bindings_follow rightAfter) same
  cases left
  cases right
  simp_all

end ExpressionTree

namespace ExpressionsTree

theorem expressions_follow {tree : ExpressionsTree} (greedy : tree.Greedy) (atEnd : Bool) :
    SequenceFollows .semicolon ExpressionTree.tokens ExpressionTree.Follows tree.expressions
      (if atEnd then [.semicolon] else []) := by
  refine ⟨tree.nonempty, ?inner, ?last, ?ended⟩
  case inner =>
    intro expression member more
    have kept := greedy expression (List.dropLast_subset _ member)
    exact ⟨kept, by simp [Token.extendsExpression, Token.extendsBinding]⟩
  case last =>
    intro expression found
    have kept := greedy expression (List.mem_of_getLast? found)
    cases atEnd <;> exact ⟨kept, by simp [Token.extendsExpression, Token.extendsBinding]⟩
  case ended =>
    intro expression more
    cases atEnd <;> simp [expression.tokens_ne_nil]

/-- Tokens have at most one greedy tree. -/
theorem eq_of_tokens_eq {left right : ExpressionsTree} (leftGreedy : left.Greedy)
    (rightGreedy : right.Greedy) (same : left.tokens = right.tokens) : left = right := by
  obtain ⟨expressions, ends⟩ := ExpressionTree.selfDelimiting.separated
    (expressions_follow leftGreedy left.semicolonAtEnd)
    (expressions_follow rightGreedy right.semicolonAtEnd) same
  obtain ⟨_, _, leftEnd⟩ := left
  obtain ⟨_, _, rightEnd⟩ := right
  cases leftEnd <;> cases rightEnd <;> simp_all

end ExpressionsTree

end EventBindings
