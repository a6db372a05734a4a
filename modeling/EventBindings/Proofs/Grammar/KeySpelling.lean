import EventBindings.Proofs.Grammar.KeyReading
import EventBindings.Proofs.Grammar.Unambiguity

namespace EventBindings

/-!
Keys written without blanks. The tokens of a key never lengthen each other, so a
tree with proper names can be written down and read back.
-/

theorem apart_cons {token : Token} {tokens : List Token} (ends : token.endsInName = false)
    (apart : Apart tokens) : Apart (token :: tokens) := by
  cases tokens with
  | nil => trivial
  | cons second tokens => exact ⟨by simp [ends], apart⟩

theorem apart_of_not_lengthensName {first : Token} {tokens : List Token}
    (none : ∀ token ∈ tokens, token.lengthensName = false) : Apart (first :: tokens) := by
  induction tokens generalizing first with
  | nil => trivial
  | cons second tokens ih =>
      refine ⟨by simp [none second (by simp)], ih fun token member => none token ?_⟩
      simp [member]

theorem Apart.append {left right : List Token} (leftApart : Apart left) (rightApart : Apart right)
    (stops : Stops Token.lengthensName right) : Apart (left ++ right) := by
  induction left with
  | nil => exact rightApart
  | cons first left ih =>
      cases left with
      | nil =>
          cases right with
          | nil => trivial
          | cons second right => exact ⟨by simp [stops second rfl], rightApart⟩
      | cons second left => exact ⟨leftApart.1, ih leftApart.2⟩

theorem apart_modifiers (modifiers : List String) : Apart (modifiers.map .modifier) := by
  cases modifiers with
  | nil => trivial
  | cons name modifiers =>
      apply apart_of_not_lengthensName
      simp [Token.lengthensName]

theorem apart_commaSeparated {items : List (List Token)} (apart : ∀ item ∈ items, Apart item) :
    Apart (separated .comma items) := by
  induction items with
  | nil => trivial
  | cons first items ih =>
      have firstApart := apart first (by simp)
      have restApart := ih fun item member => apart item (by simp [member])
      cases items with
      | nil => simpa using firstApart
      | cons second items =>
          rw [separated_cons_cons]
          exact firstApart.append (apart_cons rfl restApart) (by simp [Token.lengthensName])

theorem EventClause.apart_tokens (clause : EventClause) : Apart clause.tokens := by
  apply apart_of_not_lengthensName
  intro token member
  rcases List.mem_append.mp member with inState | inModifiers
  · obtain ⟨outcome, _, rfl⟩ := List.mem_map.mp inState
    rfl
  · obtain ⟨name, _, rfl⟩ := List.mem_map.mp inModifiers
    rfl

theorem GroupTree.apart_tokens (group : GroupTree) : Apart group.tokens := by
  cases group with
  | single clause => exact clause.apart_tokens
  | bracketed clauses _ modifiers =>
      have inside : Apart (separated .comma (clauses.map EventClause.tokens)) := by
        apply apart_commaSeparated
        intro item member
        obtain ⟨clause, _, rfl⟩ := List.mem_map.mp member
        exact clause.apart_tokens
      have behind : Apart (.closeBracket :: modifiers.map .modifier) :=
        apart_cons rfl (apart_modifiers modifiers)
      exact apart_cons rfl (inside.append behind (by simp [Token.lengthensName]))

theorem KeyTree.apart_tokens (tree : KeyTree) : Apart tree.tokens := by
  obtain ⟨groups, nonempty, template⟩ := tree
  have inGroups : Apart (groupTokens groups) := by
    apply apart_commaSeparated
    intro item member
    obtain ⟨group, _, rfl⟩ := List.mem_map.mp member
    exact group.apart_tokens
  cases template with
  | none => simpa [KeyTree.tokens] using inGroups
  | some written =>
      obtain ⟨name, modifiers⟩ := written
      have named : Apart (.identifier name :: modifiers.map .modifier) := by
        apply apart_of_not_lengthensName
        simp [Token.lengthensName]
      exact inGroups.append (apart_cons rfl named) (by simp [Token.lengthensName])

/-- A key written down without blanks is read as what its tree means. -/
theorem parseBindingKey_spelled (tree : KeyTree) (named : ∀ token ∈ tree.tokens, token.Named) :
    parseBindingKey (String.ofList (spelled tree.tokens)) = .ok tree.binding := by
  rw [parseBindingKey_eq_ok_iff]
  exact ⟨_, tokenize_spelled named tree.apart_tokens, tree, by simp, rfl⟩

end EventBindings
