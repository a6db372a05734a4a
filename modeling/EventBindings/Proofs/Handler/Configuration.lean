import EventBindings.Handler.Translate
import EventBindings.Proofs.Fallible

namespace EventBindings.Handler

/-!
How handlers set up the resolver of an attribute's bindings. Apart from the
action, all there is to know of it depends on the handler and on the parameters
in the key.
-/

/-- The handlers that put a template into the element. -/
def inserting : List Handler := [.append, .prepend]

/-- The handlers whose actions need rendered text. -/
def rendering : List Handler := [.refresh, .append, .prepend]

/-- How a handler sets up the resolver of an attribute's bindings. -/
structure Configures (handler : Handler) (attr : ActionAttribute) (resolver : Resolver) : Prop where
  action : resolver.action.isSome = true
  implicitStates : resolver.implicitStates =
    if handler = .toggleDisabled then [.pending, .done] else [.ok]
  template : if handler ∈ inserting then attr.givenParams = resolver.template.toList
    else resolver.template = none
  modifiers : resolver.modifiers = if handler ∈ rendering then ∅ else .ofList [withoutHtml]

variable {handler : Handler} {attr : ActionAttribute} {bindings : List Binding}
  {actions : ActionMap} {resolver : Resolver}

theorem params_of_optionalParam {params : List String} {template : Option String}
    (accepted : handler.optionalParam params = .ok template) : params = template.toList := by
  unfold optionalParam at accepted
  split at accepted <;> cases accepted <;> rfl

theorem params_of_oneParam {params : List String} {param : String}
    (accepted : handler.oneParam params = .ok param) : params = [param] := by
  unfold oneParam at accepted
  split at accepted <;> cases accepted
  rfl

theorem params_of_someParams {params accepted : List String}
    (given : handler.someParams params = .ok accepted) : accepted = params ∧ params ≠ [] := by
  unfold someParams at given
  split at given
  next => cases given
  next nonempty =>
    cases given
    exact ⟨rfl, nonempty⟩

theorem configures_of_resolver (resolved : handler.resolver attr bindings actions = .ok resolver) :
    handler.Configures attr resolver := by
  cases handler with
  | refresh | remove | removeParent | reset | toggleDisabled | toggleClass | dispatch | redirect
  | script =>
      obtain ⟨_, _, resolved⟩ := bind_eq_ok_iff.mp resolved
      cases resolved
      exact ⟨rfl, rfl, rfl, rfl⟩
  | run =>
      obtain ⟨_, _, resolved⟩ := bind_eq_ok_iff.mp resolved
      obtain ⟨_, _, resolved⟩ := bind_eq_ok_iff.mp resolved
      cases resolved
      exact ⟨rfl, rfl, rfl, rfl⟩
  | append | prepend =>
      obtain ⟨_, accepted, resolved⟩ := bind_eq_ok_iff.mp resolved
      split at resolved <;> cases resolved
      exact ⟨rfl, rfl, params_of_optionalParam accepted, rfl⟩

end EventBindings.Handler
