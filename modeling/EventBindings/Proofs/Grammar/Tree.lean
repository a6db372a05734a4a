import EventBindings.Binding.ExpressionReader
import EventBindings.Binding.KeyReader

namespace EventBindings

/-!
Derivation trees of the grammar of bindings, each with the tokens that it
derives and with what these tokens mean:

    expressions = expression (";" expression)* ";"?
    expression  = binding ("," binding)*
    binding     = group ("," group)* target
    group       = event | "[" event ("," event)* "]" modifier*
    event       = name state? modifier*
    target      = ("->" name)? ("=>" (name | call))?
    key         = group ("," group)* ("::" name modifier*)?

A comma may stand between two events of a binding or between two bindings, so a
text of expressions may have many trees. A tree is greedy when only the last
binding of an expression goes without a target.
-/

/-- Items with a separator between any two. -/
def separated (separator : Token) (items : List (List Token)) : List Token :=
  [separator].intercalate items

/-- Items with a separator after each. -/
def followed (separator : Token) (items : List (List Token)) : List Token :=
  items.flatMap (· ++ [separator])

@[simp] theorem followed_nil (separator : Token) : followed separator [] = [] := rfl

theorem followed_concat (separator : Token) (items : List (List Token)) (last : List Token) :
    followed separator (items ++ [last]) = followed separator items ++ last ++ [separator] := by
  simp [followed]

@[simp] theorem separated_singleton (separator : Token) (item : List Token) :
    separated separator [item] = item := by
  simp [separated, List.intercalate]

theorem separated_cons_cons (separator : Token) (first second : List Token)
    (rest : List (List Token)) :
    separated separator (first :: second :: rest) =
      first ++ separator :: separated separator (second :: rest) := by
  simp [separated, List.intercalate]

theorem separated_cons (separator : Token) (first : List Token) {items : List (List Token)}
    (nonempty : items ≠ []) :
    separated separator (first :: items) = first ++ separator :: separated separator items := by
  obtain ⟨second, rest, rfl⟩ := List.exists_cons_of_ne_nil nonempty
  exact separated_cons_cons separator first second rest

theorem separated_concat (separator : Token) (items : List (List Token)) (last : List Token) :
    separated separator (items ++ [last]) = followed separator items ++ last := by
  induction items with
  | nil => simp
  | cons first items ih =>
      rw [List.cons_append, separated_cons separator first (by simp), ih]
      simp [followed]

theorem mem_separated {separator token : Token} {item : List Token} {items : List (List Token)}
    (inItem : token ∈ item) (inItems : item ∈ items) : token ∈ separated separator items := by
  induction items with
  | nil => cases inItems
  | cons first items ih =>
      by_cases alone : items = []
      · subst alone
        rw [separated_singleton, ← List.mem_singleton.mp inItems]
        exact inItem
      · rw [separated_cons separator first alone]
        rcases List.mem_cons.mp inItems with rfl | inRest
        · exact List.mem_append_left _ inItem
        · exact List.mem_append_right _ (List.mem_cons_of_mem _ (ih inRest))

theorem separator_mem_separated {separator : Token} (first second : List Token)
    (items : List (List Token)) :
    separator ∈ separated separator (first :: second :: items) := by
  rw [separated_cons_cons]
  exact List.mem_append_right _ List.mem_cons_self

theorem exists_concat {α : Type} {items : List α} (nonempty : items ≠ []) :
    ∃ others last, items = others ++ [last] :=
  ⟨items.dropLast, items.getLast nonempty, (List.dropLast_concat_getLast nonempty).symm⟩

theorem separated_append_separator (separator : Token) {items : List (List Token)}
    (nonempty : items ≠ []) :
    separated separator items ++ [separator] = followed separator items := by
  obtain ⟨others, last, rfl⟩ := exists_concat nonempty
  simp [separated_concat, followed_concat]

namespace EventClause

/-- A clause is its own tree: name, outcome, modifiers. -/
def tokens (clause : EventClause) : List Token :=
  .identifier clause.name :: (clause.state.toList.map .state ++ clause.modifiers.map .modifier)

def addModifiers (clause : EventClause) (modifiers : List String) : EventClause :=
  { clause with modifiers := clause.modifiers ++ modifiers }

end EventClause

def addModifiersToLast (modifiers : List String) : List EventClause → List EventClause
  | [] => []
  | [last] => [last.addModifiers modifiers]
  | clause :: rest => clause :: addModifiersToLast modifiers rest

@[simp] theorem addModifiersToLast_concat (modifiers : List String) (clauses : List EventClause)
    (last : EventClause) :
    addModifiersToLast modifiers (clauses ++ [last]) =
      clauses ++ [last.addModifiers modifiers] := by
  induction clauses with
  | nil => rfl
  | cons clause clauses ih =>
      have step : addModifiersToLast modifiers (clause :: (clauses ++ [last])) =
          clause :: addModifiersToLast modifiers (clauses ++ [last]) := by
        cases clauses <;> rfl
      rw [List.cons_append, step, ih, List.cons_append]

theorem addModifiersToLast_append {modifiers : List String} {clauses rest : List EventClause}
    (nonempty : rest ≠ []) :
    addModifiersToLast modifiers (clauses ++ rest) =
      clauses ++ addModifiersToLast modifiers rest := by
  obtain ⟨others, last, rfl⟩ := exists_concat nonempty
  rw [← List.append_assoc, addModifiersToLast_concat, addModifiersToLast_concat, List.append_assoc]

/-- One event, or events in brackets with modifiers behind them. -/
inductive GroupTree where
  | single (clause : EventClause)
  | bracketed (clauses : List EventClause) (nonempty : clauses ≠ []) (modifiers : List String)
  deriving DecidableEq

namespace GroupTree

def tokens : GroupTree → List Token
  | single clause => clause.tokens
  | bracketed clauses _ modifiers =>
      .openBracket :: (separated .comma (clauses.map EventClause.tokens) ++
        .closeBracket :: modifiers.map .modifier)

/-- The events of the group. Modifiers behind the brackets belong to the last
one. -/
def clauses : GroupTree → List EventClause
  | single clause => [clause]
  | bracketed clauses _ modifiers => addModifiersToLast modifiers clauses

end GroupTree

def groupTokens (groups : List GroupTree) : List Token :=
  separated .comma (groups.map GroupTree.tokens)

theorem groupTokens_concat (groups : List GroupTree) (last : GroupTree) :
    groupTokens (groups ++ [last]) =
      followed .comma (groups.map GroupTree.tokens) ++ last.tokens := by
  simp [groupTokens, separated_concat]

def ActionRef.token : ActionRef → Token
  | named name => .identifier name
  | call name => .call name

/-- Half of a target: an arrow and a token, or nothing. -/
def optionalTokens {α : Type} (opener : Token) (token : α → Token) : Option α → List Token
  | none => []
  | some value => [opener, token value]

/-- Groups of events and their target. -/
structure BindingTree where
  groups : List GroupTree
  nonempty : groups ≠ []
  template : Option String
  action : Option ActionRef
  deriving DecidableEq

namespace BindingTree

def targetTokens (tree : BindingTree) : List Token :=
  optionalTokens .arrow .identifier tree.template ++
    optionalTokens .doubleArrow ActionRef.token tree.action

def tokens (tree : BindingTree) : List Token :=
  groupTokens tree.groups ++ tree.targetTokens

def binding (tree : BindingTree) : Binding where
  events := tree.groups.flatMap GroupTree.clauses
  template := tree.template
  action := tree.action

def hasTarget (tree : BindingTree) : Bool :=
  tree.template.isSome || tree.action.isSome

end BindingTree

/-- Bindings with commas between them. -/
structure ExpressionTree where
  bindings : List BindingTree
  nonempty : bindings ≠ []
  deriving DecidableEq

namespace ExpressionTree

def tokens (tree : ExpressionTree) : List Token :=
  separated .comma (tree.bindings.map BindingTree.tokens)

def expression (tree : ExpressionTree) : Expression :=
  tree.bindings.map BindingTree.binding

/-- Every binding but the last has a target. -/
def Greedy (tree : ExpressionTree) : Prop :=
  ∀ binding ∈ tree.bindings.dropLast, binding.hasTarget = true

end ExpressionTree

/-- Expressions with semicolons between them, and perhaps one at the end. -/
structure ExpressionsTree where
  expressions : List ExpressionTree
  nonempty : expressions ≠ []
  semicolonAtEnd : Bool
  deriving DecidableEq

namespace ExpressionsTree

def tokens (tree : ExpressionsTree) : List Token :=
  separated .semicolon (tree.expressions.map ExpressionTree.tokens) ++
    if tree.semicolonAtEnd then [.semicolon] else []

def meaning (tree : ExpressionsTree) : List Expression :=
  tree.expressions.map ExpressionTree.expression

def Greedy (tree : ExpressionsTree) : Prop :=
  ∀ expression ∈ tree.expressions, expression.Greedy

end ExpressionsTree

/-- A binding key: groups of events, and perhaps a template with modifiers
behind it. -/
structure KeyTree where
  groups : List GroupTree
  nonempty : groups ≠ []
  template : Option (String × List String)
  deriving DecidableEq

namespace KeyTree

def tokens (tree : KeyTree) : List Token :=
  groupTokens tree.groups ++
    match tree.template with
    | none => []
    | some (name, modifiers) => .doubleColon :: .identifier name :: modifiers.map .modifier

/-- The binding that the tree means. Modifiers behind the template belong to
the last event. -/
def binding (tree : KeyTree) : Binding where
  events := addModifiersToLast ((tree.template.map Prod.snd).getD [])
    (tree.groups.flatMap GroupTree.clauses)
  template := tree.template.map Prod.fst

end KeyTree

end EventBindings
