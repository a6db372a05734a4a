import EventBindings.Conflict
import EventBindings.Proofs.Element.Errors
import EventBindings.Proofs.KeyEvents

namespace EventBindings

/-!
Declared events. The events that an expression declares are those that its
compiled keys state, and so are the events of an action, unless its handler takes
an event without an outcome for others than `ok`. A key is read back strictly
here: each of its events has to state its outcome.
-/

/-- The event of a clause that states its outcome. -/
def EventClause.statedEvent? (clause : EventClause) : Option Event :=
  clause.state.map (⟨clause.name, ·⟩)

/-- The events that a key states, if the key can be read. -/
def statedEvents? (key : String) : Option (List Event) := do
  let rest ← Text.afterStart? bindingKeyStart key
  let binding ← (parseBindingKey rest).toOption
  binding.events.mapM EventClause.statedEvent?

/-- The set of all events that the keys of attributes state. -/
def keyEvents? (lines : List Attribute) : Option (OrderedSet Event) := do
  let stated ← lines.mapM fun line => statedEvents? line.key
  return .ofList stated.flatten

/-- Modifiers leave the outcomes of clauses as they are stated. -/
theorem mapM_statedEvent?_addModifiersToLast (modifiers : List String) (events : List Event) :
    (addModifiersToLast modifiers (events.map Event.clause)).mapM EventClause.statedEvent? =
      some events := by
  induction events with
  | nil => rfl
  | cons event events ih =>
      cases events with
      | nil => rfl
      | cons second events =>
          have others : addModifiersToLast modifiers ((event :: second :: events).map Event.clause) =
              event.clause :: addModifiersToLast modifiers ((second :: events).map Event.clause) :=
            rfl
          have first : event.clause.statedEvent? = some event := rfl
          rw [others, List.mapM_cons, first, ih]
          rfl

theorem ResolvedBinding.statedEvents?_canonicalKey {binding : ResolvedBinding}
    (writable : binding.Writable) : statedEvents? binding.canonicalKey = some binding.events := by
  have read := parseBindingKey_spelled _ (named_keyTree writable)
  rw [spelled_keyTree, String.ofList_toList, keyTree_binding] at read
  have stated := mapM_statedEvent?_addModifiersToLast binding.modifiers.toList binding.events
  rw [statedEvents?, canonicalKey, Text.afterStart?_append]
  simp [read, stated, Except.toOption]

section Expressions

variable {text : String} {expressions : List Expression} (parsed : parse text = .ok expressions)
include parsed

/-- The keys of an expression state what the expression declares. -/
theorem keyEvents?_compile {resolver : Resolver} (writable : resolver.Writable)
    (states : resolver.implicitStates = [.ok]) {events : OrderedSet Event}
    (declared : declaredEvents text = .ok events) :
    keyEvents? (resolver.compile expressions) = some events := by
  have stated : ∀ binding ∈ expressions.flatten,
      statedEvents? (resolver.resolve binding).toAttribute.key =
        some (binding.events.map EventClause.event) := by
    intro binding member
    rw [← Resolver.events_resolve states]
    exact ResolvedBinding.statedEvents?_canonicalKey
      (Resolver.writable_of_parse writable parsed member)
  rw [declaredEvents_of_parse parsed, Except.ok.injEq, List.map_flatMap] at declared
  rw [keyEvents?, Resolver.compile, List.mapM_map]
  have read := mapM_eq_some_map stated
  simp only [Function.comp_def, read]
  rw [← declared]
  rfl

end Expressions

theorem keyEvents?_compileExpression {text : String} {actions : ActionMap}
    {lines : List Attribute} (compiled : compileExpression text actions = .ok lines) :
    ∃ events, declaredEvents text = .ok events ∧ keyEvents? lines = some events := by
  obtain ⟨expressions, parsed, compiled⟩ := bind_eq_ok_iff.mp compiled
  cases compiled
  have declared := declaredEvents_of_parse parsed
  exact ⟨_, declared, keyEvents?_compile parsed Resolver.writable_of_defaults rfl declared⟩

theorem Handler.keyEvents?_translate {handler : Handler} {attr : ActionAttribute}
    {actions : ActionMap} {lines : List Attribute}
    (named : ∀ param ∈ attr.params, IsName param) (other : handler ≠ .toggleDisabled)
    (translated : handler.translate attr actions = .ok lines) :
    ∃ action, CollectedAction.collect handler attr = .ok action ∧
      keyEvents? lines = some action.events := by
  obtain ⟨expressions, resolver, parsed, resolved, rfl⟩ := exists_resolver_of_translate translated
  have declared := declaredEvents_of_parse parsed
  refine ⟨⟨handler, attr, _⟩, ?collected, keyEvents?_compile parsed
    (writable_resolver named resolved) (implicitStates_of_resolver other resolved) declared⟩
  rw [CollectedAction.collect, declared]
  rfl

/-- An expression declares its events exactly if it compiles, and otherwise fails
in the same way. What it declares is the set of the events that its compiled keys
state. The same holds of the events of an action and the keys that its handler
emits, for all handlers but the one that disables elements. -/
theorem declaredEvents_compiled (text : String) (actions : ActionMap) :
    (∀ fault, declaredEvents text = .error fault ↔
      compileExpression text actions = .error fault) ∧
    (∀ lines, compileExpression text actions = .ok lines →
      ∃ events, declaredEvents text = .ok events ∧ keyEvents? lines = some events) ∧
    ∀ (handler : Handler) (attr : ActionAttribute) (lines : List Attribute),
      handler ≠ .toggleDisabled → (∀ param ∈ attr.params, IsName param) →
      handler.translate attr actions = .ok lines →
      ∃ action, CollectedAction.collect handler attr = .ok action ∧
        keyEvents? lines = some action.events := by
  refine ⟨fun fault => ?failures, fun lines => keyEvents?_compileExpression,
    fun handler attr lines other named => Handler.keyEvents?_translate named other⟩
  rw [declaredEvents_eq_error_iff, compileExpression_eq_error_iff]

theorem declaredEvents_compiled_inserted :
    let attr : ActionAttribute :=
      ⟨"x-fir-append:[ row ]", "append", ["row"], "save.once, [load:error, save]; load:error->list"⟩
    let lines : List Attribute :=
      [⟨"@fir:[save:ok,load:error,save:ok]::row.once", "$fir.appendEl()"⟩,
        ⟨"@fir:load:error::row", "$fir.appendEl()"⟩]
    Handler.append.translate attr ∅ = .ok lines ∧
      ∃ action, CollectedAction.collect .append attr = .ok action ∧
        keyEvents? lines = some action.events := by
  intro attr lines
  have translated : Handler.append.translate attr ∅ = .ok lines := by decide +kernel
  exact ⟨translated, (declaredEvents_compiled attr.value ∅).2.2 .append attr lines (by decide)
    (by decide) translated⟩

/-- The handler that disables elements states other events than the value
declares. -/
example :
    let attr : ActionAttribute := ⟨"x-fir-toggle-disabled", "toggle-disabled", [], "save"⟩
    (Handler.toggleDisabled.translate attr ∅).toOption.bind keyEvents? =
        some (.ofList [⟨"save", .done⟩, ⟨"save", .pending⟩]) ∧
      declaredEvents attr.value = .ok (.ofList [⟨"save", .ok⟩]) := by
  decide +kernel

end EventBindings
