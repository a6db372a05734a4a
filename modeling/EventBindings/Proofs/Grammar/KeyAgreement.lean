import EventBindings.Proofs.CanonicalKey
import EventBindings.Proofs.Grammar.Semicolons
import EventBindings.Proofs.Token.Tiling

namespace EventBindings

open Text

/-!
Events are written alike in expressions and in keys. A text in normal spacing
that holds nothing but events is read as the same binding by both, and a template
with modifiers behind it makes the same attribute of both, though a key has the
modifiers behind its template and an expression before the arrow.
-/

namespace GroupTree

def addModifiers (modifiers : List String) : GroupTree → GroupTree
  | single clause => single (clause.addModifiers modifiers)
  | bracketed clauses nonempty own => bracketed clauses nonempty (own ++ modifiers)

variable (modifiers : List String) (group : GroupTree)

theorem addModifiers_tokens :
    (group.addModifiers modifiers).tokens = group.tokens ++ modifiers.map .modifier := by
  cases group <;> simp [addModifiers, tokens, EventClause.tokens, EventClause.addModifiers]

theorem addModifiers_clauses :
    (group.addModifiers modifiers).clauses = addModifiersToLast modifiers group.clauses := by
  cases group with
  | single clause => rfl
  | bracketed clauses nonempty own =>
      obtain ⟨others, last, rfl⟩ := exists_concat nonempty
      simp [addModifiers, GroupTree.clauses, EventClause.addModifiers]

end GroupTree

/-- Modifiers behind groups are modifiers of the last event. -/
theorem exists_groups_of_modifiers {groups : List GroupTree} (nonempty : groups ≠ [])
    (modifiers : List String) : ∃ all : List GroupTree, all ≠ [] ∧
      groupTokens all = groupTokens groups ++ modifiers.map .modifier ∧
      all.flatMap GroupTree.clauses =
        addModifiersToLast modifiers (groups.flatMap GroupTree.clauses) := by
  obtain ⟨others, last, rfl⟩ := exists_concat nonempty
  refine ⟨others ++ [last.addModifiers modifiers], by simp, ?tokens, ?clauses⟩
  case tokens =>
    rw [groupTokens_concat, groupTokens_concat, last.addModifiers_tokens, List.append_assoc]
  case clauses =>
    simp [addModifiersToLast_append last.clauses_ne_nil, last.addModifiers_clauses]

/-- The tokens of events have none of the marks in them that stand between
bindings, expressions and targets. -/
def Unmarked (tokens : List Token) : Prop :=
  ∀ mark ∈ [Token.semicolon, .arrow, .doubleArrow, .doubleColon], mark ∉ tokens

namespace BindingTree

theorem eq_bare_of_unmarked {tree : BindingTree} (unmarked : Unmarked tree.tokens) :
    tree = bare tree.groups tree.nonempty := by
  obtain ⟨groups, nonempty, template, action⟩ := tree
  cases template with
  | some name =>
      exact absurd (by simp [tokens, targetTokens, optionalTokens]) (unmarked .arrow (by simp))
  | none =>
      cases action with
      | some ref =>
          exact absurd (by simp [tokens, targetTokens, optionalTokens])
            (unmarked .doubleArrow (by simp))
      | none => rfl

/-- One expression with one binding. -/
def alone (tree : BindingTree) : ExpressionsTree :=
  ⟨[⟨[tree], by simp⟩], by simp, false⟩

variable (tree : BindingTree)

theorem alone_greedy : tree.alone.Greedy := by
  simp [alone, ExpressionsTree.Greedy, ExpressionTree.Greedy]

theorem alone_tokens : tree.alone.tokens = tree.tokens := by
  simp [alone, ExpressionsTree.tokens, ExpressionTree.tokens]

theorem alone_meaning : tree.alone.meaning = [[tree.binding]] := rfl

end BindingTree

theorem ExpressionTree.exists_bare {tree : ExpressionTree} (greedy : tree.Greedy)
    (unmarked : Unmarked tree.tokens) :
    ∃ groups nonempty, tree = ⟨[.bare groups nonempty], by simp⟩ := by
  have isBare : ∀ binding ∈ tree.bindings, binding = .bare binding.groups binding.nonempty := by
    intro binding member
    refine BindingTree.eq_bare_of_unmarked fun mark isMark inBinding => ?_
    exact unmarked mark isMark (mem_separated inBinding (List.mem_map_of_mem member))
  obtain ⟨bindings, nonempty⟩ := tree
  obtain ⟨others, last, rfl⟩ := exists_concat nonempty
  cases others with
  | nil =>
      refine ⟨last.groups, last.nonempty, ?_⟩
      simp only [List.nil_append]
      rw [← isBare last (by simp)]
  | cons first others =>
      have inFront : first ∈ (first :: others ++ [last]).dropLast := by
        rw [List.dropLast_concat]
        exact List.mem_cons_self
      have target : first.hasTarget = true := greedy first inFront
      rw [isBare first (by simp)] at target
      cases target

theorem ExpressionsTree.exists_bare {tree : ExpressionsTree} (greedy : tree.Greedy)
    (unmarked : Unmarked tree.tokens) :
    ∃ groups nonempty, tree = (BindingTree.bare groups nonempty).alone := by
  obtain ⟨expressions, nonempty, semicolonAtEnd⟩ := tree
  have noSemicolon := unmarked .semicolon (by simp)
  cases semicolonAtEnd with
  | true => exact absurd (by simp [tokens]) noSemicolon
  | false =>
      obtain ⟨first, rest, rfl⟩ := List.exists_cons_of_ne_nil nonempty
      cases rest with
      | nil =>
          have unmarkedFirst : Unmarked first.tokens := by simpa [tokens] using unmarked
          obtain ⟨groups, someGroup, rfl⟩ :=
            ExpressionTree.exists_bare (greedy first (by simp)) unmarkedFirst
          exact ⟨groups, someGroup, rfl⟩
      | cons second rest =>
          refine absurd ?_ noSemicolon
          exact List.mem_append_left _ (separator_mem_separated _ _ _)

theorem KeyTree.template_of_unmarked {tree : KeyTree} (unmarked : Unmarked tree.tokens) :
    tree.template = none := by
  obtain ⟨groups, nonempty, template⟩ := tree
  cases template with
  | none => rfl
  | some written => exact absurd (by simp [tokens]) (unmarked .doubleColon (by simp))

theorem parse_eq_ok_iff_tree {text : String} {expressions : List Expression} :
    parse text = .ok expressions ↔ ∃ tree : ExpressionsTree, tree.Greedy ∧
      HasTokens (normalizeBlanks text.toList) tree.tokens ∧ tree.meaning = expressions := by
  simp only [parse_eq_ok_iff_hasTokens, readExpressions_eq_ok_iff, map_token_placeFrom]
  constructor
  · rintro ⟨_, hasTokens, tree, greedy, rfl, meaning⟩
    exact ⟨tree, greedy, hasTokens, meaning⟩
  · rintro ⟨tree, greedy, hasTokens, meaning⟩
    exact ⟨tree.tokens, hasTokens, tree, greedy, rfl, meaning⟩

theorem parseBindingKey_eq_ok_iff_tree {key : String} {binding : Binding} :
    parseBindingKey key = .ok binding ↔
      ∃ tree : KeyTree, HasTokens key.toList tree.tokens ∧ tree.binding = binding := by
  rw [parseBindingKey_eq_ok_iff]
  constructor
  · rintro ⟨placed, tokenized, tree, tokens, meaning⟩
    exact ⟨tree, ⟨placed, tokenized, tokens.symm⟩, meaning⟩
  · rintro ⟨tree, ⟨placed, tokenized, tokens⟩, meaning⟩
    exact ⟨placed, tokenized, tree, tokens.symm, meaning⟩

/-- The events of the groups, and nothing else. -/
def eventsBinding (groups : List GroupTree) : Binding :=
  ⟨groups.flatMap GroupTree.clauses, none, none⟩

section Unmarked

variable {text : String} (unmarked : ∀ tokens, HasTokens text.toList tokens → Unmarked tokens)
include unmarked

theorem parseBindingKey_iff_groups {binding : Binding} : parseBindingKey text = .ok binding ↔
    ∃ groups, groups ≠ [] ∧ HasTokens text.toList (groupTokens groups) ∧
      binding = eventsBinding groups := by
  rw [parseBindingKey_eq_ok_iff_tree]
  constructor
  · rintro ⟨⟨groups, nonempty, template⟩, hasTokens, rfl⟩
    cases KeyTree.template_of_unmarked (unmarked _ hasTokens)
    refine ⟨groups, nonempty, by simpa [KeyTree.tokens] using hasTokens, ?_⟩
    simp [KeyTree.binding, eventsBinding, addModifiersToLast_nil]
  · rintro ⟨groups, nonempty, hasTokens, rfl⟩
    refine ⟨⟨groups, nonempty, none⟩, by simpa [KeyTree.tokens] using hasTokens, ?_⟩
    simp [KeyTree.binding, eventsBinding, addModifiersToLast_nil]

theorem parse_iff_groups (normal : normalizeBlanks text.toList = text.toList)
    {expressions : List Expression} : parse text = .ok expressions ↔
      ∃ groups, groups ≠ [] ∧ HasTokens text.toList (groupTokens groups) ∧
        expressions = [[eventsBinding groups]] := by
  rw [parse_eq_ok_iff_tree, normal]
  constructor
  · rintro ⟨tree, greedy, hasTokens, rfl⟩
    obtain ⟨groups, nonempty, rfl⟩ := ExpressionsTree.exists_bare greedy (unmarked _ hasTokens)
    rw [BindingTree.alone_tokens, BindingTree.bare_tokens] at hasTokens
    exact ⟨groups, nonempty, hasTokens, rfl⟩
  · rintro ⟨groups, nonempty, hasTokens, rfl⟩
    refine ⟨(BindingTree.bare groups nonempty).alone, BindingTree.alone_greedy _, ?_, rfl⟩
    rwa [BindingTree.alone_tokens, BindingTree.bare_tokens]

end Unmarked

theorem unmarked_of_hasTokens {text : List Char} {tokens : List Token}
    (plain : ∀ mark ∈ [";", "->", "=>", "::"], ¬ mark.toList <:+: text)
    (hasTokens : HasTokens text tokens) : Unmarked tokens := by
  intro mark isMark member
  have written : mark.spelling ∈ [";", "->", "=>", "::"] :=
    List.mem_map_of_mem (f := Token.spelling) isMark
  exact plain mark.spelling written (hasTokens.spelling_infix member)

/-- The modifiers as they are written, a dot before each. -/
def dotted (modifiers : List String) : String :=
  String.join (modifiers.map ("." ++ ·))

theorem toList_dotted (modifiers : List String) :
    (dotted modifiers).toList = spelled (modifiers.map .modifier) :=
  (ResolvedBinding.spelled_modifiers modifiers).symm

theorem endsName_dotted (modifiers : List String) : EndsName (dotted modifiers).toList := by
  rw [toList_dotted]
  cases modifiers with
  | nil => exact nofun
  | cons name modifiers => exact Token.endsName_spelling rfl _

section Target

variable {text template : String} {tokens : List Token} {modifiers : List String}
  (isName : IsName template) (areNames : ∀ modifier ∈ modifiers, IsName modifier)

/-- In an expression the spaces around arrows make no difference to modifiers
and names. -/
theorem spaced_padArrows_of_parts {part : List Char}
    (parts : ∀ c ∈ part, c = '.' ∨ isIdentifierPart c = true) : spaced (padArrows part) = part := by
  have bare : ∀ c ∈ part, isBlank c = false := by
    intro c member
    rcases parts c member with rfl | inName
    · decide
    · exact isBlank_of_isIdentifierPart inName
  have noArrow : '>' ∉ part := by
    intro member
    rcases parts '>' member with dot | inName <;> contradiction
  rw [padArrows_of_not_mem noArrow, spaced_of_bare bare]

section Modifiers

include areNames

theorem hasTokens_dotted : HasTokens (dotted modifiers).toList (modifiers.map .modifier) := by
  rw [toList_dotted]
  exact .of_spelled (List.forall_mem_map.mpr areNames) (apart_modifiers modifiers)

theorem eq_dot_or_isIdentifierPart :
    ∀ c ∈ (dotted modifiers).toList, c = '.' ∨ isIdentifierPart c = true := by
  intro c member
  simp only [toList_dotted, spelled, List.flatMap_map, List.mem_flatMap] at member
  obtain ⟨name, inModifiers, member⟩ := member
  rcases List.mem_append.mp (String.toList_append ▸ member) with dot | inName
  · exact .inl (List.mem_singleton.mp dot)
  · exact .inr ((areNames name inModifiers).isIdentifierPart c inName)

end Modifiers

include isName areNames

theorem hasTokens_key (hasTokens : HasTokens text.toList tokens) :
    HasTokens (text ++ "::" ++ template ++ dotted modifiers).toList
      (tokens ++ .doubleColon :: .identifier template :: modifiers.map .modifier) := by
  have written : (text ++ "::" ++ template ++ dotted modifiers).toList =
      text.toList ++ spelled (.doubleColon :: .identifier template :: modifiers.map .modifier) := by
    simp only [String.toList_append, toList_dotted, List.append_assoc]
    rfl
  have named : ∀ token ∈ Token.doubleColon :: .identifier template :: modifiers.map .modifier,
      token.Named := by
    simpa [Token.Named, isName] using areNames
  have apart : Apart (.doubleColon :: .identifier template :: modifiers.map .modifier) :=
    apart_cons rfl (apart_of_not_lengthensName (by simp [Token.lengthensName]))
  rw [written]
  exact hasTokens.append (Token.endsName_spelling rfl _) (.of_spelled named apart)

theorem spaced_padArrows_expression :
    spaced (padArrows (text ++ dotted modifiers ++ "->" ++ template).toList) =
      spaced (padArrows text.toList) ++ (dotted modifiers).toList ++
        ' ' :: ("->".toList ++ ' ' :: template.toList) := by
  have inTemplate : spaced (padArrows template.toList) = template.toList :=
    spaced_padArrows_of_parts fun c member => .inr (isName.isIdentifierPart c member)
  have inModifiers := spaced_padArrows_of_parts (eq_dot_or_isIdentifierPart areNames)
  have apart : ((dotted modifiers).toList ++ '-' :: '>' :: template.toList).head? ≠ some '>' := by
    cases letters : (dotted modifiers).toList with
    | nil => simp
    | cons c rest =>
        intro first
        cases first
        rcases eq_dot_or_isIdentifierPart areNames '>' (by simp [letters]) with dot | inName <;>
          contradiction
  have arrow : padArrows ('-' :: '>' :: template.toList) =
      ' ' :: '-' :: '>' :: ' ' :: padArrows template.toList := by simp [padArrows]
  have spacedArrow : spaced (' ' :: '-' :: '>' :: ' ' :: padArrows template.toList) =
      ' ' :: '-' :: '>' :: ' ' :: spaced (padArrows template.toList) := rfl
  have written : (text ++ dotted modifiers ++ "->" ++ template).toList =
      text.toList ++ ((dotted modifiers).toList ++ '-' :: '>' :: template.toList) := by
    simp
  rw [written, padArrows_append apart, padArrows_append (by simp), arrow, spaced_append,
    spaced_append, spacedArrow, inModifiers, inTemplate, List.append_assoc]
  rfl

/-- The tokens of an expression with modifiers and a template behind its events. -/
theorem hasTokens_expression (hasTokens : HasTokens (normalizeBlanks text.toList) tokens) :
    HasTokens (normalizeBlanks (text ++ dotted modifiers ++ "->" ++ template).toList)
      (tokens ++ modifiers.map .modifier ++ [.arrow, .identifier template]) := by
  have inArrow : HasTokens "->".toList [.arrow] := .of_named .arrow trivial
  have inTemplate : HasTokens template.toList [.identifier template] :=
    .of_named (.identifier template) isName
  have target : HasTokens (' ' :: ("->".toList ++ ' ' :: template.toList))
      [.arrow, .identifier template] :=
    HasTokens.space_iff.mpr (inArrow.append (breaks_cons (.inl rfl)).endsName
      (HasTokens.space_iff.mpr inTemplate))
  rw [HasTokens.normalizeBlanks_iff] at hasTokens ⊢
  rw [spaced_padArrows_expression isName areNames]
  have events := hasTokens.append (endsName_dotted modifiers) (hasTokens_dotted areNames)
  exact events.append (breaks_cons (.inl rfl)).endsName target

end Target

section Agreement

variable {text template : String} {modifiers : List String} {groups : List GroupTree}
  (nonempty : groups ≠ []) (isName : IsName template)
  (areNames : ∀ modifier ∈ modifiers, IsName modifier)

/-- The groups with a template, and with modifiers for the last event. -/
def targetBinding (groups : List GroupTree) (template : String) (modifiers : List String) : Binding :=
  ⟨addModifiersToLast modifiers (groups.flatMap GroupTree.clauses), some template, none⟩

include nonempty isName areNames

theorem parseBindingKey_target (hasTokens : HasTokens text.toList (groupTokens groups)) :
    parseBindingKey (text ++ "::" ++ template ++ dotted modifiers) =
      .ok (targetBinding groups template modifiers) :=
  parseBindingKey_eq_ok_iff_tree.mpr
    ⟨⟨groups, nonempty, some (template, modifiers)⟩, hasTokens_key isName areNames hasTokens, rfl⟩

theorem parse_target (hasTokens : HasTokens (normalizeBlanks text.toList) (groupTokens groups)) :
    parse (text ++ dotted modifiers ++ "->" ++ template) =
      .ok [[targetBinding groups template modifiers]] := by
  obtain ⟨all, someGroup, tokens, clauses⟩ := exists_groups_of_modifiers nonempty modifiers
  let tree : BindingTree := ⟨all, someGroup, some template, none⟩
  have derived : HasTokens
      (normalizeBlanks (text ++ dotted modifiers ++ "->" ++ template).toList) tree.alone.tokens := by
    have target := hasTokens_expression isName areNames hasTokens
    rw [← tokens] at target
    rwa [BindingTree.alone_tokens]
  have meaning : tree.alone.meaning = [[targetBinding groups template modifiers]] := by
    rw [BindingTree.alone_meaning, targetBinding, ← clauses]
    rfl
  exact parse_eq_ok_iff_tree.mpr ⟨tree.alone, tree.alone_greedy, derived, meaning⟩

end Agreement

/-- Without a value a key stands for the same attribute as an expression that
names no action, whatever the map. -/
theorem compileBindingKey_of_parse {key : String} {binding : Binding}
    (parsed : parseBindingKey key = .ok binding) (noAction : binding.action = none)
    (actions : ActionMap) :
    compileBindingKey key "" = .ok (Resolver.resolve { actions } binding).toAttribute := by
  have action : bindingAction "" = defaultAction := by decide
  rw [compileBindingKey, parsed, ok_bind, action,
    ← ResolvedBinding.resolve_defaultAction noAction actions]
  rfl

/-- A text in normal spacing that has no semicolon, no arrow and no double colon
is an expression exactly if it is a key, and both are the same binding. With
modifiers and a template it makes the same attribute as an expression and as a
key, whatever the map. -/
theorem parse_agrees_with_parseBindingKey {text : String} (normal : Text.normalize text = text)
    (plain : ∀ mark ∈ [";", "->", "=>", "::"], ¬ mark.toList <:+: text.toList) :
    (∀ expressions, parse text = .ok expressions ↔
      ∃ binding, parseBindingKey text = .ok binding ∧ expressions = [[binding]]) ∧
    ∀ binding, parseBindingKey text = .ok binding →
      ∀ (template : String) (modifiers : List String) (actions : ActionMap),
        IsName template → (∀ modifier ∈ modifiers, IsName modifier) →
          ∃ compiled,
            compileBindingKey (text ++ "::" ++ template ++ dotted modifiers) "" = .ok compiled ∧
            compileExpression (text ++ dotted modifiers ++ "->" ++ template) actions =
              .ok [compiled] := by
  have unmarked : ∀ tokens, HasTokens text.toList tokens → Unmarked tokens :=
    fun _ hasTokens => unmarked_of_hasTokens plain hasTokens
  have normalBlanks : normalizeBlanks text.toList = text.toList := by
    rw [← String.toList_ofList (l := normalizeBlanks text.toList), ← Text.normalize, normal]
  constructor
  · intro expressions
    rw [parse_iff_groups unmarked normalBlanks]
    simp only [parseBindingKey_iff_groups unmarked]
    constructor
    · rintro ⟨groups, nonempty, hasTokens, rfl⟩
      exact ⟨_, ⟨groups, nonempty, hasTokens, rfl⟩, rfl⟩
    · rintro ⟨_, ⟨groups, nonempty, hasTokens, rfl⟩, rfl⟩
      exact ⟨groups, nonempty, hasTokens, rfl⟩
  · intro binding accepted template modifiers actions isName areNames
    obtain ⟨groups, nonempty, hasTokens, rfl⟩ := (parseBindingKey_iff_groups unmarked).mp accepted
    have inKey := parseBindingKey_target nonempty isName areNames hasTokens
    have inExpression := parse_target nonempty isName areNames (normalBlanks.symm ▸ hasTokens)
    refine ⟨_, compileBindingKey_of_parse inKey rfl actions, ?_⟩
    rw [compileExpression_of_parse inExpression]
    rfl

/-- A name that ends in a hyphen is not lengthened by the arrow behind it. -/
theorem parse_agrees_before_arrow :
    Text.normalize "saved:ok, draft-" = "saved:ok, draft-" ∧
      (∀ mark ∈ [";", "->", "=>", "::"], ¬ mark.toList <:+: "saved:ok, draft-".toList) ∧
      ∃ compiled,
        compileBindingKey "saved:ok, draft-::todo-row.once-" "" = .ok compiled ∧
        compileExpression "saved:ok, draft-.once-->todo-row" ∅ = .ok [compiled] := by
  have normal : Text.normalize "saved:ok, draft-" = "saved:ok, draft-" := by decide +kernel
  have plain : ∀ mark ∈ [";", "->", "=>", "::"],
      ¬ mark.toList <:+: "saved:ok, draft-".toList := by decide +kernel
  have accepted : parseBindingKey "saved:ok, draft-" =
      .ok ⟨[⟨"saved", some .ok, []⟩, ⟨"draft-", none, []⟩], none, none⟩ := by decide +kernel
  have inKey : "saved:ok, draft-" ++ "::" ++ "todo-row" ++ dotted ["once-"] =
      "saved:ok, draft-::todo-row.once-" := by decide +kernel
  have inExpression : "saved:ok, draft-" ++ dotted ["once-"] ++ "->" ++ "todo-row" =
      "saved:ok, draft-.once-->todo-row" := by decide +kernel
  have compiles := (parse_agrees_with_parseBindingKey normal plain).2 _ accepted "todo-row"
    ["once-"] ∅ (by decide) (by decide)
  rw [inKey, inExpression] at compiles
  exact ⟨normal, plain, compiles⟩

end EventBindings
