import EventBindings.Proofs.Grammar.EventRun
import EventBindings.Proofs.Grammar.Unambiguity

namespace EventBindings

/-!
How expressions are read. What a reader has read belongs to greedy trees, and
the tokens of every tree, greedy or not, are read to their end. As greedy trees
are told apart by their tokens, the reader finds the one greedy tree wherever
there is a tree at all.
-/

/-- The tokens of the present binding that lead a reader to its place. -/
inductive ExpressionPlace.HasRead : ExpressionPlace → List Token → Prop where
  | inEvents (events : EventReader) {tokens : List Token} (read : events.HasRead tokens) :
      HasRead (.inEvents events) tokens
  | templateDue (groups : List GroupTree) (nonempty : groups ≠ []) :
      HasRead (.templateDue (groups.flatMap GroupTree.clauses)) (groupTokens groups ++ [.arrow])
  | afterTemplate (tree : BindingTree) (name : String) (template : tree.template = some name)
      (action : tree.action = none) :
      HasRead (.afterTemplate (tree.groups.flatMap GroupTree.clauses) name) tree.tokens
  | actionDue (groups : List GroupTree) (nonempty : groups ≠ []) (template : Option String) :
      HasRead (.actionDue (groups.flatMap GroupTree.clauses) template)
        (groupTokens groups ++ optionalTokens .arrow .identifier template ++ [.doubleArrow])
  | afterAction (tree : BindingTree) (action : tree.action.isSome = true) :
      HasRead (.afterAction tree.binding) tree.tokens

namespace BindingTree

def bare (groups : List GroupTree) (nonempty : groups ≠ []) : BindingTree :=
  ⟨groups, nonempty, none, none⟩

theorem bare_tokens (groups : List GroupTree) (nonempty : groups ≠ []) :
    (bare groups nonempty).tokens = groupTokens groups := by
  simp [tokens, targetTokens, bare, optionalTokens]

end BindingTree

namespace ExpressionPlace.HasRead

theorem actionDue_none (groups : List GroupTree) (nonempty : groups ≠ []) :
    HasRead (.actionDue (groups.flatMap GroupTree.clauses) none)
      (groupTokens groups ++ [.doubleArrow]) := by
  simpa [optionalTokens] using HasRead.actionDue groups nonempty none

theorem afterTemplate_concat (groups : List GroupTree) (nonempty : groups ≠ []) (name : String) :
    HasRead (.afterTemplate (groups.flatMap GroupTree.clauses) name)
      (groupTokens groups ++ [.arrow] ++ [.identifier name]) := by
  simpa [BindingTree.tokens, BindingTree.targetTokens, optionalTokens] using
    HasRead.afterTemplate ⟨groups, nonempty, some name, none⟩ name rfl rfl

theorem actionDue_concat (tree : BindingTree) (name : String)
    (template : tree.template = some name) (action : tree.action = none) :
    HasRead (.actionDue (tree.groups.flatMap GroupTree.clauses) (some name))
      (tree.tokens ++ [.doubleArrow]) := by
  simpa [BindingTree.tokens, BindingTree.targetTokens, optionalTokens, template, action] using
    HasRead.actionDue tree.groups tree.nonempty (some name)

theorem afterAction_concat (groups : List GroupTree) (nonempty : groups ≠ [])
    (template : Option String) (ref : ActionRef) :
    HasRead (.afterAction ⟨groups.flatMap GroupTree.clauses, template, some ref⟩)
      (groupTokens groups ++ optionalTokens .arrow .identifier template ++ [.doubleArrow] ++
        [ref.token]) := by
  simpa [BindingTree.tokens, BindingTree.targetTokens, BindingTree.binding, optionalTokens] using
    HasRead.afterAction ⟨groups, nonempty, template, some ref⟩ rfl

end ExpressionPlace.HasRead

namespace ExpressionReader

/-- The tokens that lead a reader from the first expression to its place: ended
expressions, ended bindings with targets, and a binding that has begun. -/
inductive HasRead : ExpressionReader → List Token → Prop where
  | inBinding (finished : List ExpressionTree) (greedy : ∀ tree ∈ finished, tree.Greedy)
      (bindings : List BindingTree) (targets : ∀ tree ∈ bindings, tree.hasTarget = true)
      {place : ExpressionPlace} {tokens : List Token} (read : place.HasRead tokens) :
      HasRead ⟨finished.map ExpressionTree.expression, bindings.map BindingTree.binding, place⟩
        (followed .semicolon (finished.map ExpressionTree.tokens) ++
          followed .comma (bindings.map BindingTree.tokens) ++ tokens)
  | afterSemicolon (finished : List ExpressionTree) (nonempty : finished ≠ [])
      (greedy : ∀ tree ∈ finished, tree.Greedy) :
      HasRead ⟨finished.map ExpressionTree.expression, [], .afterSemicolon⟩
        (followed .semicolon (finished.map ExpressionTree.tokens))

theorem hasRead_start : HasRead {} [] :=
  .inBinding [] (by simp) [] (by simp) (.inEvents _ EventReader.hasRead_start)

def expressionTree (bindings : List BindingTree) (last : BindingTree) : ExpressionTree :=
  ⟨bindings ++ [last], by simp⟩

theorem expressionTree_greedy {bindings : List BindingTree}
    (targets : ∀ tree ∈ bindings, tree.hasTarget = true) (last : BindingTree) :
    (expressionTree bindings last).Greedy := by
  intro tree member
  exact targets tree (by simpa [expressionTree] using member)

theorem expressionTree_tokens (bindings : List BindingTree) (last : BindingTree) :
    (expressionTree bindings last).tokens =
      followed .comma (bindings.map BindingTree.tokens) ++ last.tokens := by
  simp [ExpressionTree.tokens, expressionTree, separated_concat]

theorem expressionTree_expression (bindings : List BindingTree) (last : BindingTree) :
    (expressionTree bindings last).expression =
      bindings.map BindingTree.binding ++ [last.binding] := by
  simp [ExpressionTree.expression, expressionTree]

section Steps

variable {finished : List ExpressionTree} {bindings : List BindingTree}
  (greedy : ∀ tree ∈ finished, tree.Greedy) (targets : ∀ tree ∈ bindings, tree.hasTarget = true)

include greedy targets

theorem greedy_concat (last : BindingTree) :
    ∀ tree ∈ finished ++ [expressionTree bindings last], tree.Greedy := by
  intro tree member
  rcases List.mem_append.mp member with old | new
  · exact greedy tree old
  · rw [List.mem_singleton.mp new]
    exact expressionTree_greedy targets last

theorem hasRead_endAtSemicolon (place : ExpressionPlace) (last : BindingTree) :
    HasRead (endAtSemicolon ⟨finished.map ExpressionTree.expression,
        bindings.map BindingTree.binding, place⟩ last.binding)
      (followed .semicolon (finished.map ExpressionTree.tokens) ++
        followed .comma (bindings.map BindingTree.tokens) ++ (last.tokens ++ [.semicolon])) := by
  have tree := HasRead.afterSemicolon (finished ++ [expressionTree bindings last]) (by simp)
    (greedy_concat greedy targets last)
  simpa [endAtSemicolon, endExpression, followed_concat, expressionTree_tokens,
    expressionTree_expression] using tree

theorem hasRead_endBinding (place : ExpressionPlace) (last : BindingTree)
    (target : last.hasTarget = true) :
    HasRead (endBinding ⟨finished.map ExpressionTree.expression,
        bindings.map BindingTree.binding, place⟩ last.binding)
      (followed .semicolon (finished.map ExpressionTree.tokens) ++
        followed .comma (bindings.map BindingTree.tokens) ++ (last.tokens ++ [.comma])) := by
  have tree := HasRead.inBinding finished greedy (bindings ++ [last]) (by
    intro tree member
    rcases List.mem_append.mp member with old | new
    · exact targets tree old
    · rw [List.mem_singleton.mp new]
      exact target) (.inEvents _ EventReader.hasRead_start)
  simpa [endBinding, followed_concat] using tree

theorem hasRead_stepEvents (place : ExpressionPlace) {events : EventReader} {tokens : List Token}
    {next : PlacedToken} {after : ExpressionReader} (read : events.HasRead tokens)
    (stepped : stepEvents ⟨finished.map ExpressionTree.expression,
      bindings.map BindingTree.binding, place⟩ events next = .ok after) :
    HasRead after (followed .semicolon (finished.map ExpressionTree.tokens) ++
      followed .comma (bindings.map BindingTree.tokens) ++ (tokens ++ [next.token])) := by
  simp only [stepEvents] at stepped
  cases eventStep : events.step next with
  | error fault => simp [eventStep, bind, Except.bind] at stepped
  | ok made =>
      rw [eventStep] at stepped
      cases made with
      | reading inside =>
          cases stepped
          have moved := EventReader.advance_of_step eventStep
          exact .inBinding finished greedy bindings targets (.inEvents _ (read.advance moved))
      | complete clauses =>
          obtain ⟨before, last, allowed, rfl, rfl⟩ := EventReader.complete_of_step eventStep
          obtain ⟨groups, nonempty, clauses, rfl⟩ := read.groups
          rw [← clauses] at stepped
          obtain ⟨token, offset⟩ := next
          cases token with
          | arrow =>
              cases stepped
              exact .inBinding finished greedy bindings targets (.templateDue groups nonempty)
          | doubleArrow =>
              cases stepped
              exact .inBinding finished greedy bindings targets (.actionDue_none groups nonempty)
          | semicolon =>
              cases stepped
              rw [← BindingTree.bare_tokens groups nonempty]
              exact hasRead_endAtSemicolon greedy targets place (.bare groups nonempty)
          | _ => cases stepped

theorem hasRead_stepEnded (place : ExpressionPlace) {tree : BindingTree}
    {next : PlacedToken} {after : ExpressionReader} (target : tree.hasTarget = true)
    (stepped : stepEnded ⟨finished.map ExpressionTree.expression,
      bindings.map BindingTree.binding, place⟩ tree.binding next = .ok after) :
    HasRead after (followed .semicolon (finished.map ExpressionTree.tokens) ++
      followed .comma (bindings.map BindingTree.tokens) ++ (tree.tokens ++ [next.token])) := by
  obtain ⟨token, offset⟩ := next
  cases token <;> simp only [stepEnded, reduceCtorEq, Except.ok.injEq] at stepped
  case comma =>
    subst stepped
    exact hasRead_endBinding greedy targets place tree target
  case semicolon =>
    subst stepped
    exact hasRead_endAtSemicolon greedy targets place tree

theorem tree_of_endExpression (place : ExpressionPlace) (last : BindingTree) :
    ∃ tree : ExpressionsTree, tree.Greedy ∧
      tree.tokens = followed .semicolon (finished.map ExpressionTree.tokens) ++
        followed .comma (bindings.map BindingTree.tokens) ++ last.tokens ∧
      tree.meaning = endExpression ⟨finished.map ExpressionTree.expression,
        bindings.map BindingTree.binding, place⟩ last.binding := by
  refine ⟨⟨finished ++ [expressionTree bindings last], by simp, false⟩, ?greedy, ?tokens, ?meaning⟩
  case greedy => exact greedy_concat greedy targets last
  case tokens => simp [ExpressionsTree.tokens, separated_concat, expressionTree_tokens]
  case meaning => simp [ExpressionsTree.meaning, endExpression, expressionTree_expression]

end Steps

/-- Reading one token more keeps what has been read. -/
theorem HasRead.step {reader after : ExpressionReader} {tokens : List Token} {next : PlacedToken}
    (read : HasRead reader tokens) (stepped : reader.step next = .ok after) :
    HasRead after (tokens ++ [next.token]) := by
  cases read with
  | afterSemicolon finished nonempty greedy =>
      have events : stepEvents ⟨finished.map ExpressionTree.expression, [], .afterSemicolon⟩
          .start next = .ok after := by
        obtain ⟨token, offset⟩ := next
        cases token <;> first | exact stepped | cases stepped
      have noTargets : ∀ tree ∈ ([] : List BindingTree), tree.hasTarget = true := by simp
      have inside := hasRead_stepEvents greedy noTargets .afterSemicolon
        EventReader.hasRead_start events
      simpa using inside
  | inBinding finished greedy bindings targets read =>
      rw [List.append_assoc]
      cases read with
      | inEvents events read => exact hasRead_stepEvents greedy targets _ read stepped
      | templateDue groups nonempty =>
          obtain ⟨token, offset⟩ := next
          cases token with
          | identifier name =>
              cases stepped
              exact .inBinding finished greedy bindings targets
                (.afterTemplate_concat groups nonempty name)
          | _ => cases stepped
      | afterTemplate tree name template action =>
          have target : tree.hasTarget = true := by simp [BindingTree.hasTarget, template]
          have binding : tree.binding = ⟨tree.groups.flatMap GroupTree.clauses, some name, none⟩ := by
            simp [BindingTree.binding, template, action]
          obtain ⟨token, offset⟩ := next
          cases token with
          | doubleArrow =>
              cases stepped
              exact .inBinding finished greedy bindings targets
                (.actionDue_concat tree name template action)
          | _ =>
              refine hasRead_stepEnded greedy targets (.afterTemplate tree.binding.events name) target ?_
              rw [binding]
              exact stepped
      | actionDue groups nonempty template =>
          obtain ⟨token, offset⟩ := next
          cases token with
          | identifier name =>
              cases stepped
              exact .inBinding finished greedy bindings targets
                (.afterAction_concat groups nonempty template (.named name))
          | call name =>
              cases stepped
              exact .inBinding finished greedy bindings targets
                (.afterAction_concat groups nonempty template (.call name))
          | _ => cases stepped
      | afterAction tree action =>
          have target : tree.hasTarget = true := by simp [BindingTree.hasTarget, action]
          exact hasRead_stepEnded greedy targets _ target stepped

/-- Where the text may end, what has been read is a greedy tree. -/
theorem HasRead.finish {reader : ExpressionReader} {tokens : List Token} {offset : Nat}
    {expressions : List Expression} (read : HasRead reader tokens)
    (ended : reader.finish offset = .ok expressions) :
    ∃ tree : ExpressionsTree, tree.Greedy ∧ tree.tokens = tokens ∧ tree.meaning = expressions := by
  cases read with
  | afterSemicolon finished nonempty greedy =>
      cases ended
      exact ⟨⟨finished, nonempty, true⟩, greedy,
        by simp [ExpressionsTree.tokens, separated_append_separator, nonempty], rfl⟩
  | inBinding finished greedy bindings targets read =>
      cases read with
      | inEvents events read =>
          cases complete : events.finish offset with
          | error fault => simp [ExpressionReader.finish, complete, bind, Except.bind] at ended
          | ok clauses =>
              simp only [ExpressionReader.finish, complete] at ended
              cases ended
              obtain ⟨before, last, allowed, rfl, rfl⟩ := EventReader.complete_of_finish complete
              obtain ⟨groups, nonempty, clauses, rfl⟩ := read.groups
              rw [← BindingTree.bare_tokens groups nonempty, ← clauses]
              exact tree_of_endExpression greedy targets _ (.bare groups nonempty)
      | templateDue groups nonempty => cases ended
      | afterTemplate tree name template action =>
          cases ended
          have binding : tree.binding = ⟨tree.groups.flatMap GroupTree.clauses, some name, none⟩ := by
            simp [BindingTree.binding, template, action]
          rw [← binding]
          exact tree_of_endExpression greedy targets _ tree
      | actionDue groups nonempty template => cases ended
      | afterAction tree action =>
          cases ended
          exact tree_of_endExpression greedy targets _ tree

end ExpressionReader

end EventBindings
