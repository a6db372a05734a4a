import EventBindings.Proofs.CanonicalKey
import EventBindings.Proofs.Element.Roles
import EventBindings.Proofs.Handler.Configuration

namespace EventBindings

/-!
What an element emits. Whether an attribute comes from an expression, from a
binding or from a handler, it is a binding whose key can be read.
-/

/-- A resolver that adds nothing but names, and under which no event is lost. -/
structure Resolver.Writable (resolver : Resolver) : Prop where
  states : resolver.implicitStates ≠ []
  template : ∀ name ∈ resolver.template, IsName name
  modifiers : ∀ name ∈ resolver.modifiers, IsName name

namespace Resolver

theorem writable_of_defaults {actions : ActionMap} {action : Option String} :
    Writable { actions, action } :=
  ⟨List.cons_ne_nil _ _, nofun, nofun⟩

theorem clauseEvents_ne_nil {resolver : Resolver} (states : resolver.implicitStates ≠ [])
    (clause : EventClause) : resolver.clauseEvents clause ≠ [] := by
  cases state : clause.state with
  | none => simpa [clauseEvents, state] using states
  | some => simp [clauseEvents, state]

theorem name_of_mem_clauseEvents {resolver : Resolver} {clause : EventClause} {event : Event}
    (member : event ∈ resolver.clauseEvents clause) : event.name = clause.name := by
  cases state : clause.state with
  | none =>
      simp only [clauseEvents, state, List.mem_map] at member
      obtain ⟨_, _, rfl⟩ := member
      rfl
  | some =>
      simp only [clauseEvents, state, List.mem_singleton] at member
      rw [member]

theorem resolve_template (resolver : Resolver) (binding : Binding) :
    (resolver.resolve binding).template = resolver.template ∨
      (resolver.resolve binding).template = binding.template := by
  unfold resolve
  cases resolver.template with
  | none => exact .inr rfl
  | some => exact .inl rfl

theorem writable_resolve {resolver : Resolver} (writable : resolver.Writable) {binding : Binding}
    (named : binding.Named) (nonempty : binding.events ≠ []) :
    (resolver.resolve binding).Writable where
  nonempty := by
    obtain ⟨others, clause, same⟩ := exists_concat nonempty
    simp [resolve, same, clauseEvents_ne_nil writable.states]
  events := by
    intro event member
    obtain ⟨clause, inBinding, inClause⟩ := List.mem_flatMap.mp member
    rw [name_of_mem_clauseEvents inClause]
    exact (named.events clause inBinding).1
  template := by
    intro name member
    rcases resolve_template resolver binding with own | written
    · exact writable.template name (own ▸ member)
    · exact named.template name (written ▸ member)
  modifiers := by
    intro name member
    rcases OrderedSet.mem_insertAll.mp member with written | added
    · obtain ⟨clause, inBinding, inClause⟩ := List.mem_flatMap.mp written
      exact (named.events clause inBinding).2 name inClause
    · exact writable.modifiers name added

theorem writable_of_parse {resolver : Resolver} (writable : resolver.Writable) {text : String}
    {expressions : List Expression} (parsed : parse text = .ok expressions) {binding : Binding}
    (member : binding ∈ expressions.flatten) : (resolver.resolve binding).Writable := by
  obtain ⟨expression, inText, inExpression⟩ := List.mem_flatten.mp member
  have nonempty := ((ne_nil_of_parse parsed).2 expression inText).2 binding inExpression
  exact writable_resolve writable (named_of_parse parsed binding member) nonempty

end Resolver

/-- The attribute is a binding, its key can be read. -/
def Attribute.Emitted (attr : Attribute) : Prop :=
  ∃ binding : ResolvedBinding, binding.Writable ∧ attr = binding.toAttribute

theorem emitted_of_compile {resolver : Resolver} (writable : resolver.Writable) {text : String}
    {expressions : List Expression} (parsed : parse text = .ok expressions) :
    ∀ attr ∈ resolver.compile expressions, attr.Emitted := by
  intro attr member
  obtain ⟨binding, inExpressions, rfl⟩ := List.mem_map.mp member
  exact ⟨_, Resolver.writable_of_parse writable parsed inExpressions, rfl⟩

theorem emitted_of_compileExpression {text : String} {actions : ActionMap}
    {attributes : List Attribute} (compiled : compileExpression text actions = .ok attributes) :
    ∀ attr ∈ attributes, attr.Emitted := by
  rw [compileExpression, bind_eq_ok_iff] at compiled
  obtain ⟨expressions, parsed, compiled⟩ := compiled
  cases compiled
  exact emitted_of_compile Resolver.writable_of_defaults parsed

/-- What a key compiles to is a binding with the action of the value. -/
theorem exists_binding_of_compileBindingKey {key value : String} {attr : Attribute}
    (compiled : compileBindingKey key value = .ok attr) :
    ∃ binding : ResolvedBinding, binding.Writable ∧ binding.action = bindingAction value ∧
      attr = binding.toAttribute := by
  obtain ⟨binding, parsed, completed⟩ := bind_eq_ok_iff.mp compiled
  cases completed
  exact ⟨_, Resolver.writable_resolve Resolver.writable_of_defaults
    (named_of_parseBindingKey parsed) (ne_nil_of_parseBindingKey parsed), rfl, rfl⟩

theorem emitted_of_compileBindingKey {key value : String} {attr : Attribute}
    (compiled : compileBindingKey key value = .ok attr) : attr.Emitted := by
  obtain ⟨binding, writable, _, same⟩ := exists_binding_of_compileBindingKey compiled
  exact ⟨binding, writable, same⟩

namespace Handler

theorem writable_resolver {handler : Handler} {attr : ActionAttribute}
    {bindings : List Binding} {actions : ActionMap} {resolver : Resolver}
    (named : ∀ param ∈ attr.params, IsName param)
    (resolved : handler.resolver attr bindings actions = .ok resolver) : resolver.Writable := by
  obtain ⟨_, states, template, modifiers⟩ := configures_of_resolver resolved
  refine ⟨?states, ?template, ?modifiers⟩
  case states =>
    rw [states]
    split <;> exact List.cons_ne_nil _ _
  case template =>
    intro name member
    split at template
    · rw [ActionAttribute.givenParams_of_named named] at template
      have inParams : name ∈ attr.params := by
        rw [template]
        exact Option.mem_toList.mpr member
      exact named name inParams
    · rw [template] at member
      cases member
  case modifiers =>
    intro name member
    rw [modifiers] at member
    split at member
    · cases member
    · have withoutHtmlOnly : name ∈ [withoutHtml] := OrderedSet.mem_ofList.mp member
      rw [List.mem_singleton.mp withoutHtmlOnly]
      decide

theorem exists_resolver_of_translate {handler : Handler} {attr : ActionAttribute}
    {actions : ActionMap} {attributes : List Attribute}
    (translated : handler.translate attr actions = .ok attributes) :
    ∃ expressions resolver, parse attr.value = .ok expressions ∧
      handler.resolver attr expressions.flatten actions = .ok resolver ∧
      attributes = resolver.compile expressions := by
  rw [translate, bind_eq_ok_iff] at translated
  obtain ⟨expressions, parsed, translated⟩ := translated
  split at translated
  · cases translated
  · obtain ⟨resolver, resolved, translated⟩ := bind_eq_ok_iff.mp translated
    cases translated
    exact ⟨expressions, resolver, mapError_eq_ok_iff.mp parsed, resolved, rfl⟩

theorem emitted_of_translate {handler : Handler} {attr : ActionAttribute} {actions : ActionMap}
    {attributes : List Attribute} (named : ∀ param ∈ attr.params, IsName param)
    (translated : handler.translate attr actions = .ok attributes) :
    ∀ out ∈ attributes, out.Emitted := by
  obtain ⟨expressions, resolver, parsed, resolved, rfl⟩ := exists_resolver_of_translate translated
  exact emitted_of_compile (writable_resolver named resolved) parsed

end Handler

namespace Contribution

/-- What passes is emitted, and what is collected has identifiers for
parameters. -/
structure Writable (contribution : Contribution) : Prop where
  passed : ∀ attr ∈ contribution.passed?, attr.Emitted
  collected : ∀ action ∈ contribution.collected?, ∀ param ∈ action.attr.params, IsName param

theorem writable_ofAttribute {registry : Registry} {actions : ActionMap} {attr : Attribute}
    {contribution : Contribution}
    (contributed : ofAttribute registry actions attr = .ok contribution) :
    contribution.Writable := by
  have offered := offered registry actions attr
  generalize ofAttribute registry actions attr = result at contributed offered
  cases offered with
  | render value =>
      obtain ⟨_, compiled, rfl⟩ := map_eq_ok_iff.mp contributed
      exact ⟨emitted_of_compileExpression compiled, nofun⟩
  | bindingKey marked rest value =>
      obtain ⟨_, compiled, rfl⟩ := map_eq_ok_iff.mp contributed
      exact ⟨List.forall_mem_singleton.mpr (emitted_of_compileBindingKey compiled), nofun⟩
  | unreadKey => cases contributed
  | action other readKey registered =>
      obtain ⟨_, collects, rfl⟩ := map_eq_ok_iff.mp contributed
      obtain ⟨events, _, collects⟩ := bind_eq_ok_iff.mp collects
      cases collects
      refine ⟨nofun, ?_⟩
      intro _ given
      cases given
      exact ActionKey.named_of_parse readKey
  | skipped =>
      cases contributed
      exact ⟨nofun, nofun⟩

end Contribution

/-- Every attribute that an element compiles to is a binding whose key can be
read. -/
theorem emitted_of_compileElement {attributes : List Attribute} {registry : Registry}
    {actions : ActionMap} {out : List Attribute}
    (compiled : compileElement attributes registry actions = .ok out) :
    ∀ attr ∈ out, attr.Emitted := by
  obtain ⟨contributions, contributed, compiled⟩ := bind_eq_ok_iff.mp compiled
  obtain ⟨_, _, compiled⟩ := bind_eq_ok_iff.mp compiled
  obtain ⟨translated, translation, compiled⟩ := bind_eq_ok_iff.mp compiled
  cases compiled
  have writable : ∀ contribution ∈ contributions, contribution.Writable := by
    intro contribution member
    obtain ⟨attr, _, found⟩ := exists_of_mapM (mapError_eq_ok_iff.mp contributed) contribution member
    exact Contribution.writable_ofAttribute found
  intro attr member
  rcases List.mem_append.mp member with passed | emitted
  · obtain ⟨contribution, inElement, inContribution⟩ := List.mem_flatMap.mp passed
    exact (writable contribution inElement).passed attr inContribution
  · obtain ⟨lines, inTranslated, inLines⟩ := List.mem_flatten.mp emitted
    obtain ⟨action, inCollected, found⟩ := exists_of_mapM translation lines inTranslated
    obtain ⟨contribution, inElement, same⟩ :=
      List.mem_filterMap.mp (List.mem_mergeSort.mp inCollected)
    exact Handler.emitted_of_translate ((writable contribution inElement).collected action same)
      found attr inLines

end EventBindings
