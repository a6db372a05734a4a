import EventBindings.Proofs.Element.Emission

namespace EventBindings

/-!
The events in the keys of compiled bindings. Reading the keys of an expression
back gives the events that the expression listens to, whatever else a handler
adds, as long as it takes an event without an outcome for one with the outcome
`ok`.
-/

/-- The events in the key of a binding, in their order, if the key can be read. -/
def eventsOfKey? (key : String) : Option (List Event) :=
  match Text.afterStart? bindingKeyStart key with
  | none => none
  | some rest =>
      match parseBindingKey rest with
      | .ok binding => some (binding.events.map EventClause.event)
      | .error _ => none

def Event.StandsIn (event : Event) (key : String) : Prop :=
  ∃ events, eventsOfKey? key = some events ∧ event ∈ events

theorem Resolver.events_resolve {resolver : Resolver} (states : resolver.implicitStates = [.ok])
    (binding : Binding) :
    (resolver.resolve binding).events = binding.events.map EventClause.event := by
  have clauses : resolver.clauseEvents = fun clause => [clause.event] := by
    funext clause
    cases state : clause.state <;> simp [clauseEvents, EventClause.event, state, states]
  rw [resolve, clauses, ← List.map_eq_flatMap]

/-- The key of a binding gives its events back, in order and with repetitions. -/
theorem ResolvedBinding.eventsOfKey?_canonicalKey {binding : ResolvedBinding}
    (writable : binding.Writable) : eventsOfKey? binding.canonicalKey = some binding.events := by
  obtain ⟨clauses, read, completed⟩ := parseBindingKey_keyText writable
  have events := congrArg ResolvedBinding.events completed
  rw [Resolver.events_resolve rfl] at events
  rw [eventsOfKey?, canonicalKey, Text.afterStart?_append]
  simp only [read, events]

example : eventsOfKey? "@fir:[save:ok,save:error]::form.prevent" =
    some [⟨"save", .ok⟩, ⟨"save", .error⟩] := by
  decide +kernel

theorem ResolvedBinding.standsIn_canonicalKey_iff {binding : ResolvedBinding}
    (writable : binding.Writable) {event : Event} :
    event.StandsIn binding.canonicalKey ↔ event ∈ binding.events := by
  simp [Event.StandsIn, eventsOfKey?_canonicalKey writable]

theorem Attribute.Emitted.eventsOfKey? {attr : Attribute} (emitted : attr.Emitted) :
    ∃ events, EventBindings.eventsOfKey? attr.key = some events := by
  obtain ⟨binding, writable, rfl⟩ := emitted
  exact ⟨_, binding.eventsOfKey?_canonicalKey writable⟩

section Expressions

variable {text : String} {expressions : List Expression} (parsed : parse text = .ok expressions)
include parsed

theorem declaredEvents_of_parse : declaredEvents text =
    .ok (.ofList ((expressions.flatten.flatMap Binding.events).map EventClause.event)) := by
  rw [declaredEvents, parsed]
  rfl

/-- An event stands in some key that an expression compiles to exactly if the
expression listens to it. -/
theorem standsIn_compile_iff {resolver : Resolver} (writable : resolver.Writable)
    (states : resolver.implicitStates = [.ok]) {events : OrderedSet Event}
    (declared : declaredEvents text = .ok events) {event : Event} :
    (∃ line ∈ resolver.compile expressions, event.StandsIn line.key) ↔ event ∈ events := by
  rw [declaredEvents_of_parse parsed, Except.ok.injEq] at declared
  rw [← declared, OrderedSet.mem_ofList, List.map_flatMap, List.mem_flatMap]
  have inKey : ∀ binding ∈ expressions.flatten,
      (event.StandsIn (resolver.resolve binding).toAttribute.key ↔
        event ∈ binding.events.map EventClause.event) := by
    intro binding member
    rw [← Resolver.events_resolve states]
    exact ResolvedBinding.standsIn_canonicalKey_iff
      (Resolver.writable_of_parse writable parsed member)
  constructor
  · intro given
    obtain ⟨line, member, stands⟩ := given
    obtain ⟨binding, inExpressions, rfl⟩ := List.mem_map.mp member
    exact ⟨binding, inExpressions, (inKey binding inExpressions).mp stands⟩
  · intro given
    obtain ⟨binding, inExpressions, listed⟩ := given
    exact ⟨_, List.mem_map_of_mem inExpressions, (inKey binding inExpressions).mpr listed⟩

end Expressions

namespace Handler

/-- Only one handler takes an event without an outcome for others than `ok`. -/
theorem implicitStates_of_resolver {handler : Handler} {attr : ActionAttribute}
    {bindings : List Binding} {actions : ActionMap} {resolver : Resolver}
    (other : handler ≠ .toggleDisabled)
    (resolved : handler.resolver attr bindings actions = .ok resolver) :
    resolver.implicitStates = [.ok] := by
  rw [(configures_of_resolver resolved).implicitStates, if_neg other]

/-- An event stands in some key that a handler emits exactly if the value of the
attribute listens to it. -/
theorem standsIn_translate_iff {handler : Handler} {attr : ActionAttribute}
    {actions : ActionMap} {lines : List Attribute} {events : OrderedSet Event}
    (named : ∀ param ∈ attr.params, IsName param) (other : handler ≠ .toggleDisabled)
    (translated : handler.translate attr actions = .ok lines)
    (declared : declaredEvents attr.value = .ok events) {event : Event} :
    (∃ line ∈ lines, event.StandsIn line.key) ↔ event ∈ events := by
  obtain ⟨expressions, resolver, parsed, resolved, rfl⟩ := exists_resolver_of_translate translated
  exact standsIn_compile_iff parsed (writable_resolver named resolved)
    (implicitStates_of_resolver other resolved) declared

end Handler

theorem standsIn_compileExpression_iff {text : String} {actions : ActionMap}
    {lines : List Attribute} {events : OrderedSet Event}
    (compiled : compileExpression text actions = .ok lines)
    (declared : declaredEvents text = .ok events) {event : Event} :
    (∃ line ∈ lines, event.StandsIn line.key) ↔ event ∈ events := by
  rw [compileExpression, bind_eq_ok_iff] at compiled
  obtain ⟨expressions, parsed, compiled⟩ := compiled
  cases compiled
  exact standsIn_compile_iff parsed Resolver.writable_of_defaults rfl declared

end EventBindings
