import EventBindings.Proofs.Grammar.KeyAgreement
import EventBindings.Proofs.Token.Brackets

namespace EventBindings

open Text

/-!
Brackets change nothing. The events of a group are the same in brackets and out of
them, once the modifiers behind the brackets are those of its last event. So a text
that is read is read as the same with a space for every bracket.
-/

theorem withoutBrackets_separated {separator : Token} (bare : separator.isBracket = false)
    (items : List (List Token)) :
    withoutBrackets (separated separator items) =
      separated separator (items.map withoutBrackets) := by
  induction items with
  | nil => rfl
  | cons first items ih =>
      cases items with
      | nil => simp
      | cons second items =>
          have kept : withoutBrackets [separator] = [separator] :=
            withoutBrackets_of_forall (by simpa using bare)
          rw [separated_cons_cons, List.append_cons, withoutBrackets_append, withoutBrackets_append,
            ih, kept]
          simp [separated_cons_cons]

theorem EventClause.withoutBrackets_tokens (clause : EventClause) :
    withoutBrackets clause.tokens = clause.tokens := by
  apply withoutBrackets_of_forall
  simp [tokens, or_imp, forall_and, Token.isBracket]

/-- The clauses as tokens, whatever the groups that they are in. -/
def clauseTokens (clauses : List EventClause) : List Token :=
  separated .comma (clauses.map EventClause.tokens)

theorem clauseTokens_append {clauses more : List EventClause} (nonempty : clauses ≠ [])
    (someMore : more ≠ []) :
    clauseTokens (clauses ++ more) = clauseTokens clauses ++ .comma :: clauseTokens more := by
  induction clauses with
  | nil => exact absurd rfl nonempty
  | cons first clauses ih =>
      cases clauses with
      | nil =>
          simp only [clauseTokens, List.singleton_append, List.map_cons, List.map_nil,
            separated_singleton]
          exact separated_cons .comma _ (by simpa using someMore)
      | cons second clauses =>
          have others := ih (List.cons_ne_nil _ _)
          simp only [clauseTokens, List.cons_append, List.map_cons, separated_cons_cons] at others ⊢
          rw [others, List.append_assoc, List.cons_append]

theorem clauseTokens_addModifiersToLast (modifiers : List String) {clauses : List EventClause}
    (nonempty : clauses ≠ []) :
    clauseTokens (addModifiersToLast modifiers clauses) =
      clauseTokens clauses ++ modifiers.map .modifier := by
  obtain ⟨others, last, rfl⟩ := exists_concat nonempty
  simp [clauseTokens, separated_concat, EventClause.tokens, EventClause.addModifiers]

namespace GroupTree

theorem withoutBrackets_tokens (group : GroupTree) :
    withoutBrackets group.tokens = clauseTokens group.clauses := by
  cases group with
  | single clause => simpa [clauseTokens, clauses, tokens] using clause.withoutBrackets_tokens
  | bracketed inside nonempty modifiers =>
      have own : withoutBrackets (clauseTokens inside) = clauseTokens inside := by
        rw [clauseTokens, withoutBrackets_separated rfl, List.map_map]
        simp [Function.comp_def, EventClause.withoutBrackets_tokens]
      have behind : withoutBrackets (modifiers.map .modifier) = modifiers.map .modifier :=
        withoutBrackets_of_forall (by simp [Token.isBracket])
      calc withoutBrackets (tokens (.bracketed inside nonempty modifiers))
          = withoutBrackets (clauseTokens inside) ++ withoutBrackets (modifiers.map .modifier) := by
            rw [← withoutBrackets_append]
            simp [withoutBrackets, tokens, clauseTokens, Token.isBracket]
        _ = clauseTokens (addModifiersToLast modifiers inside) := by
            rw [own, behind, clauseTokens_addModifiersToLast modifiers nonempty]

/-- The groups of the same clauses, each clause on its own. -/
def unbracketed (groups : List GroupTree) : List GroupTree :=
  (groups.flatMap clauses).map single

theorem unbracketed_clauses (groups : List GroupTree) :
    (unbracketed groups).flatMap clauses = groups.flatMap clauses := by
  simp [unbracketed, List.flatMap_map, clauses]

theorem unbracketed_ne_nil {groups : List GroupTree} (nonempty : groups ≠ []) :
    unbracketed groups ≠ [] := by
  simpa [unbracketed] using flatMap_clauses_ne_nil nonempty

theorem clauseTokens_flatMap (groups : List GroupTree) :
    clauseTokens (groups.flatMap clauses) =
      separated .comma (groups.map fun group => clauseTokens group.clauses) := by
  induction groups with
  | nil => rfl
  | cons first groups ih =>
      cases groups with
      | nil => simp
      | cons second groups =>
          have someMore := flatMap_clauses_ne_nil (List.cons_ne_nil second groups)
          rw [List.flatMap_cons, clauseTokens_append first.clauses_ne_nil someMore, ih,
            List.map_cons, List.map_cons, List.map_cons, separated_cons_cons]

theorem groupTokens_unbracketed (groups : List GroupTree) :
    groupTokens (unbracketed groups) = withoutBrackets (groupTokens groups) := by
  have alone : groupTokens (unbracketed groups) = clauseTokens (groups.flatMap clauses) := by
    simp [groupTokens, clauseTokens, unbracketed, Function.comp_def, tokens]
  rw [alone, clauseTokens_flatMap, groupTokens, withoutBrackets_separated rfl, List.map_map]
  simp [Function.comp_def, withoutBrackets_tokens]

end GroupTree

theorem withoutBrackets_optionalTokens {α : Type} {opener : Token} {token : α → Token}
    (bare : opener.isBracket = false) (bareToken : ∀ value, (token value).isBracket = false)
    (value : Option α) :
    withoutBrackets (optionalTokens opener token value) = optionalTokens opener token value := by
  cases value <;> simp [withoutBrackets, optionalTokens, bare, bareToken]

namespace BindingTree

variable (tree : BindingTree)

def unbracketed : BindingTree :=
  { tree with
    groups := GroupTree.unbracketed tree.groups
    nonempty := GroupTree.unbracketed_ne_nil tree.nonempty }

theorem unbracketed_binding : tree.unbracketed.binding = tree.binding := by
  simp [unbracketed, binding, GroupTree.unbracketed_clauses]

theorem unbracketed_tokens : tree.unbracketed.tokens = withoutBrackets tree.tokens := by
  have bareAction : ∀ ref : ActionRef, ref.token.isBracket = false := by
    intro ref
    cases ref <;> rfl
  have target : withoutBrackets tree.targetTokens = tree.unbracketed.targetTokens := by
    rw [targetTokens, withoutBrackets_append, withoutBrackets_optionalTokens rfl fun _ => rfl,
      withoutBrackets_optionalTokens rfl bareAction]
    rfl
  have groups : withoutBrackets (groupTokens tree.groups) = groupTokens tree.unbracketed.groups :=
    (GroupTree.groupTokens_unbracketed tree.groups).symm
  rw [tokens, tokens, withoutBrackets_append, groups, target]

end BindingTree

namespace ExpressionTree

variable (tree : ExpressionTree)

def unbracketed : ExpressionTree :=
  ⟨tree.bindings.map BindingTree.unbracketed, by simpa using tree.nonempty⟩

theorem unbracketed_expression : tree.unbracketed.expression = tree.expression := by
  simp [unbracketed, expression, Function.comp_def, BindingTree.unbracketed_binding]

theorem unbracketed_tokens : tree.unbracketed.tokens = withoutBrackets tree.tokens := by
  rw [tokens, tokens, withoutBrackets_separated rfl]
  simp [unbracketed, Function.comp_def, BindingTree.unbracketed_tokens]

theorem unbracketed_greedy (greedy : tree.Greedy) : tree.unbracketed.Greedy := by
  intro binding member
  rw [unbracketed, ← List.map_dropLast] at member
  obtain ⟨bracketed, inFront, rfl⟩ := List.mem_map.mp member
  exact greedy bracketed inFront

end ExpressionTree

namespace ExpressionsTree

variable (tree : ExpressionsTree)

def unbracketed : ExpressionsTree :=
  { tree with
    expressions := tree.expressions.map ExpressionTree.unbracketed
    nonempty := by simpa using tree.nonempty }

theorem unbracketed_meaning : tree.unbracketed.meaning = tree.meaning := by
  simp [unbracketed, meaning, Function.comp_def, ExpressionTree.unbracketed_expression]

theorem unbracketed_tokens : tree.unbracketed.tokens = withoutBrackets tree.tokens := by
  rw [tokens, tokens, withoutBrackets_append, withoutBrackets_separated rfl]
  cases atEnd : tree.semicolonAtEnd <;>
    simp [unbracketed, Function.comp_def, ExpressionTree.unbracketed_tokens, atEnd,
      withoutBrackets, Token.isBracket]

theorem unbracketed_greedy (greedy : tree.Greedy) : tree.unbracketed.Greedy := by
  intro expression member
  obtain ⟨bracketed, inText, rfl⟩ := List.mem_map.mp member
  exact bracketed.unbracketed_greedy (greedy bracketed inText)

end ExpressionsTree

namespace KeyTree

variable (tree : KeyTree)

def unbracketed : KeyTree :=
  { tree with
    groups := GroupTree.unbracketed tree.groups
    nonempty := GroupTree.unbracketed_ne_nil tree.nonempty }

theorem unbracketed_binding : tree.unbracketed.binding = tree.binding := by
  simp [unbracketed, binding, GroupTree.unbracketed_clauses]

theorem unbracketed_tokens : tree.unbracketed.tokens = withoutBrackets tree.tokens := by
  obtain ⟨groups, nonempty, template⟩ := tree
  rw [tokens, tokens, withoutBrackets_append, ← GroupTree.groupTokens_unbracketed]
  congr 1
  cases template with
  | none => rfl
  | some written =>
      obtain ⟨name, modifiers⟩ := written
      have bare : ∀ token ∈ Token.doubleColon :: .identifier name :: modifiers.map .modifier,
          token.isBracket = false := by simp [Token.isBracket]
      exact (withoutBrackets_of_forall bare).symm

end KeyTree

section Reading

variable {text : String}

theorem parse_of_unbracketed {expressions : List Expression}
    (parsed : parse text = .ok expressions) : parse (unbracketed text) = .ok expressions := by
  obtain ⟨tree, greedy, hasTokens, rfl⟩ := parse_eq_ok_iff_tree.mp parsed
  refine parse_eq_ok_iff_tree.mpr
    ⟨tree.unbracketed, tree.unbracketed_greedy greedy, ?_, tree.unbracketed_meaning⟩
  rw [unbracketed, String.toList_ofList, tree.unbracketed_tokens]
  exact hasTokens.normalizeBlanks_clearBrackets

theorem parseBindingKey_of_unbracketed {binding : Binding}
    (parsed : parseBindingKey text = .ok binding) :
    parseBindingKey (unbracketed text) = .ok binding := by
  obtain ⟨tree, hasTokens, rfl⟩ := parseBindingKey_eq_ok_iff_tree.mp parsed
  refine parseBindingKey_eq_ok_iff_tree.mpr ⟨tree.unbracketed, ?_, tree.unbracketed_binding⟩
  rw [unbracketed, String.toList_ofList, tree.unbracketed_tokens]
  exact hasTokens.clearBrackets

end Reading

/-- An expression or a key that is read is read as the same with a space for every
bracket, and so it is compiled to the same and declares the same events. -/
theorem unbracketed_reads_alike (text : String) :
    (∀ expressions, parse text = .ok expressions →
      parse (unbracketed text) = .ok expressions ∧
        (∀ actions, compileExpression (unbracketed text) actions = compileExpression text actions) ∧
        declaredEvents (unbracketed text) = declaredEvents text) ∧
    ∀ binding, parseBindingKey text = .ok binding →
      parseBindingKey (unbracketed text) = .ok binding ∧
        ∀ value, compileBindingKey (unbracketed text) value = compileBindingKey text value := by
  constructor
  · intro expressions parsed
    have alike := parse_of_unbracketed parsed
    refine ⟨alike, fun actions => ?_, ?_⟩
    · rw [compileExpression, compileExpression, alike, parsed]
    · rw [declaredEvents, declaredEvents, alike, parsed]
  · intro binding parsed
    have alike := parseBindingKey_of_unbracketed parsed
    refine ⟨alike, fun value => ?_⟩
    rw [compileBindingKey, compileBindingKey, alike, parsed]

/-- Modifiers behind the brackets and in them go to the last event alike. -/
example : unbracketed "[a,b.x].y,c" = " a,b.x .y,c" ∧
    parse "[a,b.x].y,c" = parse " a,b.x .y,c" := by
  decide +kernel

end EventBindings
