import EventBindings.Binding.Resolver
import EventBindings.Proofs.Grammar.KeySpelling
import EventBindings.Proofs.Grammar.Names
import EventBindings.Proofs.Text.Start

namespace EventBindings

/-!
Canonical keys. The key of a binding is the text of a tree, and reading it back
gives the events, the template and the modifiers of the binding again.
-/

theorem OrderedSet.insertAll_toList_empty (set : OrderedSet String) :
    OrderedSet.insertAll set.toList ∅ = set :=
  OrderedSet.eq_of_mem_iff fun _ => OrderedSet.mem_ofList

def Event.clause (event : Event) : EventClause :=
  ⟨event.name, some event.state, []⟩

/-- The group that stands for events in a canonical key: brackets stand around
several events. -/
def eventsGroup (events : List Event) (nonempty : events ≠ []) (modifiers : List String) :
    GroupTree :=
  match events with
  | [event] => .single (event.clause.addModifiers modifiers)
  | events => .bracketed (events.map Event.clause) (by simpa using nonempty) modifiers

theorem eventsGroup_clauses (events : List Event) (nonempty : events ≠ [])
    (modifiers : List String) :
    (eventsGroup events nonempty modifiers).clauses =
      addModifiersToLast modifiers (events.map Event.clause) := by
  unfold eventsGroup
  split <;> rfl

namespace ResolvedBinding

/-- What makes the key of a binding readable: there are events, and every name
is an identifier. -/
structure Writable (binding : ResolvedBinding) : Prop where
  nonempty : binding.events ≠ []
  events : ∀ event ∈ binding.events, IsName event.name
  template : ∀ name ∈ binding.template, IsName name
  modifiers : ∀ name ∈ binding.modifiers, IsName name

def keyTree (binding : ResolvedBinding) (nonempty : binding.events ≠ []) : KeyTree :=
  match binding.template with
  | none => ⟨[eventsGroup binding.events nonempty binding.modifiers.toList], by simp, none⟩
  | some name =>
      ⟨[eventsGroup binding.events nonempty []], by simp, some (name, binding.modifiers.toList)⟩

theorem keyTree_binding (binding : ResolvedBinding) (nonempty : binding.events ≠ []) :
    (binding.keyTree nonempty).binding =
      ⟨addModifiersToLast binding.modifiers.toList (binding.events.map Event.clause),
        binding.template, none⟩ := by
  unfold keyTree
  split <;> rename_i same <;>
    simp [KeyTree.binding, eventsGroup_clauses, addModifiersToLast_nil, same]

theorem addModifiersToLast_clauses (events : List Event) (nonempty : events ≠ [])
    (modifiers : List String) (resolver : Resolver) :
    (addModifiersToLast modifiers (events.map Event.clause)).flatMap resolver.clauseEvents =
        events ∧
      (addModifiersToLast modifiers (events.map Event.clause)).flatMap EventClause.modifiers =
        modifiers := by
  obtain ⟨others, last, rfl⟩ := exists_concat nonempty
  constructor
  · have kept : ∀ event : Event, resolver.clauseEvents event.clause = [event] := fun _ => rfl
    have lastKept : resolver.clauseEvents (last.clause.addModifiers modifiers) = [last] := rfl
    simp [List.flatMap_map, kept, lastKept]
  · have bare : ∀ event : Event, event.clause.modifiers = [] := fun _ => rfl
    simp [List.flatMap_map, bare, EventClause.addModifiers]

/-- What is read from the key has the events, the template and the modifiers of
the binding. -/
theorem resolve_keyTree (binding : ResolvedBinding) (nonempty : binding.events ≠ []) :
    Resolver.resolve { action := some binding.action } (binding.keyTree nonempty).binding =
      binding := by
  obtain ⟨events, modifiers⟩ := addModifiersToLast_clauses binding.events nonempty
    binding.modifiers.toList { action := some binding.action }
  rw [keyTree_binding]
  simp only [Resolver.resolve, events, modifiers]
  rw [OrderedSet.insertAll_toList_empty]
  cases binding
  rfl

theorem spelled_clause (event : Event) : spelled event.clause.tokens = event.text.toList := by
  simp [spelled, EventClause.tokens, Event.clause, Token.spelling, Event.text]

theorem spelled_modifiers (modifiers : List String) :
    spelled (modifiers.map .modifier) = (String.join (modifiers.map ("." ++ ·))).toList := by
  simp [spelled, List.flatMap_map, Token.spelling]

theorem spelled_clauses (events : List Event) :
    spelled (separated .comma ((events.map Event.clause).map EventClause.tokens)) =
      (String.intercalate "," (events.map Event.text)).toList := by
  induction events with
  | nil => rfl
  | cons first events ih =>
      cases events with
      | nil => simp [spelled_clause]
      | cons second events =>
          simp only [List.map_cons, separated_cons_cons, String.intercalate_cons_cons] at ih ⊢
          rw [spelled_append, spelled_cons, ih, spelled_clause]
          simp [Token.spelling]

theorem spelled_eventsGroup (events : List Event) (nonempty : events ≠ [])
    (modifiers : List String) :
    spelled (eventsGroup events nonempty modifiers).tokens =
      (eventsText events).toList ++ spelled (modifiers.map .modifier) := by
  cases events with
  | nil => exact absurd rfl nonempty
  | cons first events =>
      cases events with
      | nil =>
          have tokens : (eventsGroup [first] nonempty modifiers).tokens =
              first.clause.tokens ++ modifiers.map .modifier := by
            simp [eventsGroup, GroupTree.tokens, EventClause.tokens, EventClause.addModifiers,
              Event.clause]
          rw [tokens, spelled_append, spelled_clause]
          rfl
      | cons second events =>
          simp only [eventsGroup, GroupTree.tokens]
          rw [spelled_cons, spelled_append, spelled_cons, spelled_clauses]
          simp [eventsText, Token.spelling]

theorem spelled_keyTree (binding : ResolvedBinding) (nonempty : binding.events ≠ []) :
    spelled (binding.keyTree nonempty).tokens = binding.keyText.toList := by
  obtain ⟨events, template, action, modifiers⟩ := binding
  have modifiersSpelled := spelled_modifiers modifiers.toList
  cases template with
  | none =>
      simp [keyTree, KeyTree.tokens, groupTokens, spelled_eventsGroup, modifiersSpelled, keyText,
        templateText, modifiersText]
  | some name =>
      simp [keyTree, KeyTree.tokens, groupTokens, spelled_append, spelled_cons, spelled_nil,
        spelled_eventsGroup, modifiersSpelled, keyText, templateText, modifiersText,
        Token.spelling]

theorem named_keyTree {binding : ResolvedBinding} (writable : binding.Writable) :
    ∀ token ∈ (binding.keyTree writable.nonempty).tokens, token.Named := by
  have nonempty : binding.events.map Event.clause ≠ [] := by simpa using writable.nonempty
  rw [KeyTree.named_tokens_iff, keyTree_binding, Binding.named_iff,
    named_addModifiersToLast_iff nonempty, List.forall_mem_map]
  refine ⟨⟨?_, ?_⟩, writable.template, nofun⟩
  · intro event member
    exact ⟨writable.events event member, nofun⟩
  · intro name member
    exact writable.modifiers name member

/-- The key of a binding is read, and what is read is completed to the binding
itself. -/
theorem parseBindingKey_keyText {binding : ResolvedBinding} (writable : binding.Writable) :
    ∃ clauses, parseBindingKey binding.keyText = .ok clauses ∧
      Resolver.resolve { action := some binding.action } clauses = binding := by
  have read := parseBindingKey_spelled _ (named_keyTree writable)
  rw [spelled_keyTree, String.ofList_toList] at read
  exact ⟨_, read, resolve_keyTree binding writable.nonempty⟩

theorem resolve_action (clauses : Binding) (action : String) :
    Resolver.resolve { action := some action } clauses =
      { Resolver.resolve {} clauses with action } := rfl

theorem resolve_defaultAction {clauses : Binding} (implicit : clauses.action = none)
    (actions : ActionMap) :
    Resolver.resolve { action := some defaultAction } clauses =
      Resolver.resolve { actions } clauses := by
  cases clauses
  cases implicit
  rfl

/-- Bindings with the same key differ in their action at most. -/
theorem eq_of_keyText_eq {binding other : ResolvedBinding} (writable : binding.Writable)
    (otherWritable : other.Writable) (same : other.keyText = binding.keyText) :
    other = { binding with action := other.action } := by
  obtain ⟨clauses, read, completed⟩ := parseBindingKey_keyText writable
  obtain ⟨otherClauses, otherRead, otherCompleted⟩ := parseBindingKey_keyText otherWritable
  rw [same, read, Except.ok.injEq] at otherRead
  subst otherRead
  rw [resolve_action] at completed otherCompleted
  rw [← completed]
  exact otherCompleted.symm

theorem canonicalKey_inj {binding other : ResolvedBinding} :
    other.canonicalKey = binding.canonicalKey ↔ other.keyText = binding.keyText := by
  simp [canonicalKey]

/-- Without the text that begins it, the canonical key of a binding is read, and
what is read is completed to the same binding. So the key tells a binding but
for its action. -/
theorem canonicalKey_decodes {binding : ResolvedBinding} (writable : binding.Writable) :
    (∃ key clauses, Text.afterStart? bindingKeyStart binding.canonicalKey = some key ∧
      parseBindingKey key = .ok clauses ∧
      (Resolver.withAction {} binding.action).resolve clauses = binding) ∧
    ∀ other : ResolvedBinding, other.Writable → other.canonicalKey = binding.canonicalKey →
      other = { binding with action := other.action } := by
  obtain ⟨clauses, read, completed⟩ := parseBindingKey_keyText writable
  constructor
  · exact ⟨binding.keyText, clauses, Text.afterStart?_append .., read, completed⟩
  · intro other otherWritable same
    exact eq_of_keyText_eq writable otherWritable (canonicalKey_inj.mp same)

theorem canonicalKey_decodes_repeated_event :
    let binding : ResolvedBinding :=
      ⟨[⟨"created", .ok⟩, ⟨"failed", .error⟩, ⟨"created", .ok⟩], some "todo-row", "save()",
        .ofList ["once", "nohtml"]⟩
    binding.canonicalKey = "@fir:[created:ok,failed:error,created:ok]::todo-row.nohtml.once" ∧
      ∃ key clauses, Text.afterStart? bindingKeyStart binding.canonicalKey = some key ∧
        parseBindingKey key = .ok clauses ∧
        (Resolver.withAction {} binding.action).resolve clauses = binding :=
  ⟨by decide, (canonicalKey_decodes ⟨by decide, by decide, by decide, by decide⟩).1⟩

end ResolvedBinding

end EventBindings
