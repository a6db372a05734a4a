import EventBindings.Proofs.Element.Emission
import EventBindings.Proofs.Handler.Configuration

namespace EventBindings.Handler

/-!
The actions that handlers supply. Each handler has one action for an attribute,
made from the parameters in the key or found in the map, and every line that it
emits has that action.
-/

/-- The action that a handler supplies for an attribute. -/
inductive Supplies (attr : ActionAttribute) (actions : ActionMap) : Handler → String → Prop
  | refresh : Supplies attr actions .refresh defaultAction
  | remove : Supplies attr actions .remove (callText "removeEl")
  | removeParent : Supplies attr actions .removeParent (callText "removeParentEl")
  | append : Supplies attr actions .append (callText "appendEl")
  | prepend : Supplies attr actions .prepend (callText "prependEl")
  | reset : Supplies attr actions .reset "$el.reset()"
  | toggleDisabled : Supplies attr actions .toggleDisabled (callText "toggleDisabled")
  | toggleClass (given : attr.givenParams ≠ []) :
      Supplies attr actions .toggleClass (toggleClassText attr.givenParams)
  | dispatch (given : attr.givenParams ≠ []) :
      Supplies attr actions .dispatch (dispatchText attr.givenParams)
  | run {name action : String} (given : attr.givenParams = [name])
      (found : actions.get? name = some action) : Supplies attr actions .run action
  | redirect {path : Option String} (given : attr.givenParams = path.toList) :
      Supplies attr actions .redirect (redirectText path)
  | script {name : String} (named : scriptOf attr = .ok name) :
      Supplies attr actions .script (scriptAction actions name)

variable {handler : Handler} {attr : ActionAttribute} {bindings : List Binding}
  {actions : ActionMap} {resolver : Resolver}

theorem get?_of_mappedAction {name action : String}
    (mapped : mappedAction actions name = .ok action) :
    actions.get? name = some action := by
  unfold mappedAction at mapped
  split at mapped
  next => cases mapped
  next found =>
    split at mapped <;> cases mapped
    exact found

/-- The one action of a resolver is that of its handler. -/
theorem supplies_of_resolver (resolved : handler.resolver attr bindings actions = .ok resolver) :
    ∃ action, resolver.action = some action ∧ Supplies attr actions handler action := by
  cases handler with
  | refresh | remove | removeParent | reset | toggleDisabled =>
      obtain ⟨_, _, resolved⟩ := bind_eq_ok_iff.mp resolved
      cases resolved
      exact ⟨_, rfl, by constructor⟩
  | append | prepend =>
      obtain ⟨_, _, resolved⟩ := bind_eq_ok_iff.mp resolved
      split at resolved <;> cases resolved
      exact ⟨_, rfl, by constructor⟩
  | toggleClass =>
      obtain ⟨_, accepted, resolved⟩ := bind_eq_ok_iff.mp resolved
      cases resolved
      obtain ⟨rfl, given⟩ := params_of_someParams accepted
      exact ⟨_, rfl, .toggleClass given⟩
  | dispatch =>
      obtain ⟨_, accepted, resolved⟩ := bind_eq_ok_iff.mp resolved
      cases resolved
      obtain ⟨rfl, given⟩ := params_of_someParams accepted
      exact ⟨_, rfl, .dispatch given⟩
  | run =>
      obtain ⟨_, accepted, resolved⟩ := bind_eq_ok_iff.mp resolved
      obtain ⟨_, mapped, resolved⟩ := bind_eq_ok_iff.mp resolved
      cases resolved
      exact ⟨_, rfl, .run (params_of_oneParam accepted) (get?_of_mappedAction mapped)⟩
  | redirect =>
      obtain ⟨_, accepted, resolved⟩ := bind_eq_ok_iff.mp resolved
      cases resolved
      exact ⟨_, rfl, .redirect (params_of_optionalParam accepted)⟩
  | script =>
      obtain ⟨_, named, resolved⟩ := bind_eq_ok_iff.mp resolved
      cases resolved
      exact ⟨_, rfl, .script named⟩

/-- Every line that a handler emits has the action that the handler supplies. -/
theorem supplies_of_translate {lines : List Attribute}
    (translated : handler.translate attr actions = .ok lines) :
    ∃ action, Supplies attr actions handler action ∧ ∀ line ∈ lines, line.value = action := by
  obtain ⟨expressions, resolver, _, resolved, rfl⟩ := exists_resolver_of_translate translated
  obtain ⟨action, supplied, supplies⟩ := supplies_of_resolver resolved
  refine ⟨action, supplies, fun line member => ?_⟩
  obtain ⟨binding, _, rfl⟩ := List.mem_map.mp member
  rw [ResolvedBinding.toAttribute, Resolver.resolve, supplied, Option.getD_some]

end EventBindings.Handler
