import EventBindings.Proofs.Grammar.KeyReading
import EventBindings.Proofs.Grammar.Parsing

namespace EventBindings

/-!
Names of bindings. The names in a binding are those in the tokens of its tree,
and so every name that is read is an identifier.
-/

/-- Every name in the clause is an identifier. -/
def EventClause.Named (clause : EventClause) : Prop :=
  IsName clause.name ∧ ∀ modifier ∈ clause.modifiers, IsName modifier

def ActionRef.Named : ActionRef → Prop
  | named name | call name => IsName name

structure Binding.Named (binding : Binding) : Prop where
  events : ∀ clause ∈ binding.events, clause.Named
  template : ∀ name ∈ binding.template, IsName name
  action : ∀ ref ∈ binding.action, ref.Named

theorem named_separated_iff (separator : Token) (holds : separator.Named)
    {items : List (List Token)} :
    (∀ token ∈ separated separator items, token.Named) ↔
      ∀ item ∈ items, ∀ token ∈ item, token.Named := by
  induction items with
  | nil => simp [separated, List.intercalate]
  | cons first items ih =>
      cases items with
      | nil => simp
      | cons second items =>
          have members := List.forall_mem_cons (p := fun item : List Token =>
            ∀ token ∈ item, token.Named) (a := first) (l := second :: items)
          rw [separated_cons_cons, List.forall_mem_append, List.forall_mem_cons, ih, members,
            and_iff_right holds]

theorem EventClause.named_tokens_iff {clause : EventClause} :
    (∀ token ∈ clause.tokens, token.Named) ↔ clause.Named := by
  simp [tokens, Named, or_imp, forall_and, Token.Named]

theorem named_addModifiersToLast_iff {modifiers : List String} {clauses : List EventClause}
    (nonempty : clauses ≠ []) :
    (∀ clause ∈ addModifiersToLast modifiers clauses, clause.Named) ↔
      (∀ clause ∈ clauses, clause.Named) ∧ ∀ modifier ∈ modifiers, IsName modifier := by
  obtain ⟨others, last, rfl⟩ := exists_concat nonempty
  simp only [addModifiersToLast_concat, List.forall_mem_append, List.forall_mem_singleton,
    EventClause.Named, EventClause.addModifiers, and_assoc]

theorem GroupTree.named_tokens_iff {group : GroupTree} :
    (∀ token ∈ group.tokens, token.Named) ↔ ∀ clause ∈ group.clauses, clause.Named := by
  cases group with
  | single clause => simp [tokens, clauses, EventClause.named_tokens_iff]
  | bracketed clauses nonempty modifiers =>
      have inside : (∀ token ∈ separated .comma (clauses.map EventClause.tokens), token.Named) ↔
          ∀ clause ∈ clauses, clause.Named := by
        rw [named_separated_iff .comma trivial]
        simp [EventClause.named_tokens_iff]
      have behind : (∀ token ∈ modifiers.map Token.modifier, token.Named) ↔
          ∀ modifier ∈ modifiers, IsName modifier := by
        simp [Token.Named]
      simp only [tokens, GroupTree.clauses, named_addModifiersToLast_iff nonempty,
        List.forall_mem_cons, List.forall_mem_append, inside, behind]
      simp [Token.Named]

theorem named_groupTokens_iff {groups : List GroupTree} :
    (∀ token ∈ groupTokens groups, token.Named) ↔
      ∀ clause ∈ groups.flatMap GroupTree.clauses, clause.Named := by
  rw [groupTokens, named_separated_iff .comma trivial]
  simp only [List.forall_mem_map, GroupTree.named_tokens_iff, List.mem_flatMap]
  constructor
  · intro all clause given
    obtain ⟨group, member, inGroup⟩ := given
    exact all group member clause inGroup
  · intro all group member clause inGroup
    exact all clause ⟨group, member, inGroup⟩

theorem Binding.named_iff {binding : Binding} :
    binding.Named ↔ (∀ clause ∈ binding.events, clause.Named) ∧
      (∀ name ∈ binding.template, IsName name) ∧ ∀ ref ∈ binding.action, ref.Named :=
  ⟨fun named => ⟨named.events, named.template, named.action⟩,
    fun parts => ⟨parts.1, parts.2.1, parts.2.2⟩⟩

theorem KeyTree.named_tokens_iff {tree : KeyTree} :
    (∀ token ∈ tree.tokens, token.Named) ↔ tree.binding.Named := by
  obtain ⟨groups, nonempty, template⟩ := tree
  rw [Binding.named_iff]
  cases template with
  | none => simp [tokens, binding, addModifiersToLast_nil, named_groupTokens_iff]
  | some written =>
      obtain ⟨name, modifiers⟩ := written
      simp only [tokens, binding, List.forall_mem_append, List.forall_mem_cons,
        named_groupTokens_iff, Option.map_some, Option.getD_some,
        named_addModifiersToLast_iff (flatMap_clauses_ne_nil nonempty)]
      have written : (∀ token ∈ modifiers.map Token.modifier, token.Named) ↔
          ∀ modifier ∈ modifiers, IsName modifier := by
        simp [Token.Named]
      rw [written]
      simp only [Token.Named, Option.mem_some_iff, true_and]
      constructor
      · intro given
        obtain ⟨events, template, modifierNames⟩ := given
        refine ⟨⟨events, modifierNames⟩, ?_, ?_⟩
        · intro _ same
          subst same
          exact template
        · intro ref member
          cases member
      · intro given
        obtain ⟨⟨events, modifierNames⟩, template, _⟩ := given
        exact ⟨events, template name rfl, modifierNames⟩

theorem named_optionalTokens_iff {α : Type} (opener : Token) (token : α → Token)
    (holds : opener.Named) {value : Option α} :
    (∀ written ∈ optionalTokens opener token value, written.Named) ↔
      ∀ member ∈ value, (token member).Named := by
  cases value <;> simp [optionalTokens, holds]

theorem ActionRef.named_token_iff {ref : ActionRef} : ref.token.Named ↔ ref.Named := by
  cases ref <;> rfl

theorem BindingTree.named_tokens_iff {tree : BindingTree} :
    (∀ token ∈ tree.tokens, token.Named) ↔ tree.binding.Named := by
  rw [Binding.named_iff]
  simp only [tokens, targetTokens, List.forall_mem_append, named_groupTokens_iff, binding,
    named_optionalTokens_iff .arrow .identifier trivial,
    named_optionalTokens_iff .doubleArrow ActionRef.token trivial, ActionRef.named_token_iff]
  rfl

theorem ExpressionsTree.named_of_named_tokens {tree : ExpressionsTree}
    (named : ∀ token ∈ tree.tokens, token.Named) :
    ∀ binding ∈ tree.meaning.flatten, binding.Named := by
  rw [tokens, List.forall_mem_append, named_separated_iff .semicolon trivial, List.forall_mem_map] at named
  intro binding member
  obtain ⟨expression, inText, inExpression⟩ := List.mem_flatten.mp member
  obtain ⟨expressionTree, expressionMember, rfl⟩ := List.mem_map.mp inText
  obtain ⟨bindingTree, bindingMember, rfl⟩ := List.mem_map.mp inExpression
  have inBinding := named.1 expressionTree expressionMember
  rw [ExpressionTree.tokens, named_separated_iff .comma trivial, List.forall_mem_map] at inBinding
  exact BindingTree.named_tokens_iff.mp (inBinding bindingTree bindingMember)

theorem named_of_parse {text : String} {expressions : List Expression}
    (parsed : parse text = .ok expressions) : ∀ binding ∈ expressions.flatten, binding.Named := by
  obtain ⟨tree, ⟨placed, tokenized, tokens⟩, _, rfl⟩ := parse_eq_ok_iff.mp parsed
  apply tree.named_of_named_tokens
  rw [tokens]
  exact named_of_tokenizeFrom tokenized

/-- Every name in a key that is read is an identifier. -/
theorem named_of_parseBindingKey {key : String} {binding : Binding}
    (parsed : parseBindingKey key = .ok binding) : binding.Named := by
  obtain ⟨placed, tokenized, tree, tokens, rfl⟩ := parseBindingKey_eq_ok_iff.mp parsed
  rw [← KeyTree.named_tokens_iff, tokens]
  exact named_of_tokenizeFrom tokenized

theorem ne_nil_of_parseBindingKey {key : String} {binding : Binding}
    (parsed : parseBindingKey key = .ok binding) : binding.events ≠ [] := by
  obtain ⟨_, _, tree, _, rfl⟩ := parseBindingKey_eq_ok_iff.mp parsed
  exact addModifiersToLast_ne_nil (flatMap_clauses_ne_nil tree.nonempty)

end EventBindings
