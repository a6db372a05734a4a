import EventBindings.Proofs.Element.Errors

namespace EventBindings

/-!
The attributes of an element that matter, said without compiling it: those that
pass through, and the actions that are asked for, each with its handler.
-/

/-- An action attribute and the handler to which its action resolves. -/
structure ActionRequest where
  handler : Handler
  action : ActionAttribute

namespace ActionRequest

def precedence (request : ActionRequest) : Nat :=
  request.handler.precedence

def translate (request : ActionRequest) (actions : ActionMap) :
    Except ActionError (List Attribute) :=
  request.handler.translate request.action actions

end ActionRequest

def CollectedAction.request (action : CollectedAction) : ActionRequest :=
  ⟨action.handler, action.attr⟩

namespace Attribute

/-- What an attribute asks for, if its key is an action key and its action has a
handler. The value does not matter. -/
def request? (registry : Registry) (attr : Attribute) : Option ActionRequest :=
  if attr.key = renderKey then none
  else match ActionAttribute.parse attr.key attr.value with
    | .ok action => (registry.resolve? action.actionName).map (⟨·, action⟩)
    | .error _ => none

/-- The attribute is an expression or a binding already. -/
def isPassedThrough (attr : Attribute) : Bool :=
  attr.key = renderKey || (Text.afterStart? bindingKeyStart attr.key).isSome ||
    (Text.afterStart? alternativeKeyStart attr.key).isSome

/-- What an attribute that passes through compiles to. -/
inductive Passes (actions : ActionMap) : Attribute → List Attribute → Prop
  | render {value : String} {lines : List Attribute}
      (compiled : compileExpression value actions = .ok lines) : Passes actions ⟨renderKey, value⟩ lines
  | bindingKey {start rest value : String} {line : Attribute}
      (marked : start = bindingKeyStart ∨ start = alternativeKeyStart)
      (compiled : compileBindingKey rest value = .ok line) :
      Passes actions ⟨start ++ rest, value⟩ [line]

/-- The attribute has no influence: its key does not begin like one of ours, or
no handler is registered for the action in it. -/
inductive Ignored (registry : Registry) : Attribute → Prop
  | foreign {key value : String} (unmarked : ∀ start ∈
      [bindingKeyStart, alternativeKeyStart, actionKeyStart], ∀ rest, key ≠ start ++ rest) :
      Ignored registry ⟨key, value⟩
  | unregistered {key value : String} {parsed : ActionKey} (other : key ≠ renderKey)
      (readKey : ActionKey.parse key = .ok parsed)
      (absent : registry.resolve? parsed.name = none) : Ignored registry ⟨key, value⟩

variable {attr : Attribute}

theorem isPassedThrough_iff : attr.isPassedThrough = true ↔
    attr.key = renderKey ∨
      ∃ start rest, (start = bindingKeyStart ∨ start = alternativeKeyStart) ∧
        attr.key = start ++ rest := by
  simp only [isPassedThrough, Bool.or_eq_true, decide_eq_true_eq, Option.isSome_iff_exists,
    Text.afterStart?_eq_some_iff, or_assoc]
  constructor
  · intro given
    rcases given with same | ⟨rest, same⟩ | ⟨rest, same⟩
    · exact .inl same
    · exact .inr ⟨_, rest, .inl rfl, same⟩
    · exact .inr ⟨_, rest, .inr rfl, same⟩
  · intro given
    rcases given with same | ⟨start, rest, rfl | rfl, same⟩
    · exact .inl same
    · exact .inr (.inl ⟨rest, same⟩)
    · exact .inr (.inr ⟨rest, same⟩)

variable {registry : Registry} {actions : ActionMap}

theorem request?_eq_some_iff {request : ActionRequest} :
    attr.request? registry = some request ↔
      attr.key ≠ renderKey ∧ ActionAttribute.parse attr.key attr.value = .ok request.action ∧
        registry.resolve? request.action.actionName = some request.handler := by
  obtain ⟨handler, action⟩ := request
  unfold request?
  by_cases render : attr.key = renderKey
  · simp [render]
  · cases read : ActionAttribute.parse attr.key attr.value with
    | error fault => simp [render]
    | ok parsed =>
        simp only [render, if_false, ne_eq, not_false_eq_true, true_and, Option.map_eq_some_iff,
          ActionRequest.mk.injEq, Except.ok.injEq]
        constructor
        · intro given
          obtain ⟨_, resolved, rfl, rfl⟩ := given
          exact ⟨rfl, resolved⟩
        · intro given
          obtain ⟨rfl, resolved⟩ := given
          exact ⟨handler, resolved, rfl, rfl⟩

theorem Collects.request? {action : CollectedAction} (collects : attr.Collects registry action) :
    attr.request? registry = some action.request ∧
      declaredEvents attr.value = .ok action.events := by
  obtain ⟨other, readKey, registered, declared⟩ := collects
  refine ⟨request?_eq_some_iff.mpr ⟨other, ?_, registered⟩, declared⟩
  exact ActionAttribute.parse_eq_ok_iff.mpr ⟨_, readKey, rfl⟩

theorem Collects.key_eq {action : CollectedAction} (collects : attr.Collects registry action) :
    action.attr.key = attr.key := by
  cases collects
  rfl

theorem collects_of_request? {request : ActionRequest} {events : OrderedSet Event}
    (asked : attr.request? registry = some request)
    (declared : declaredEvents attr.value = .ok events) :
    attr.Collects registry ⟨request.handler, request.action, events⟩ := by
  obtain ⟨key, value⟩ := attr
  obtain ⟨handler, action⟩ := request
  obtain ⟨other, read, resolved⟩ := request?_eq_some_iff.mp asked
  obtain ⟨parsed, readKey, rfl⟩ := ActionAttribute.parse_eq_ok_iff.mp read
  exact .intro other readKey resolved declared

/-- The value of a grammatical attribute that asks for an action is read. -/
theorem Grammatical.exists_collects (grammatical : attr.Grammatical registry)
    {request : ActionRequest} (asked : attr.request? registry = some request) :
    ∃ action, attr.Collects registry action ∧ action.request = request := by
  cases declared : declaredEvents attr.value with
  | ok events => exact ⟨_, collects_of_request? asked declared, rfl⟩
  | error fault =>
      obtain ⟨other, read, resolved⟩ := request?_eq_some_iff.mp asked
      obtain ⟨parsed, readKey, same⟩ := ActionAttribute.parse_eq_ok_iff.mp read
      rw [same] at resolved
      exact absurd (.actionValue other readKey resolved (declaredEvents_eq_error_iff.mp declared))
        (grammatical fault)

end Attribute

namespace Contribution

variable {registry : Registry} {actions : ActionMap} {attr : Attribute}
  {contribution : Contribution}

theorem request?_eq (contributed : ofAttribute registry actions attr = .ok contribution) :
    attr.request? registry = contribution.collected?.map CollectedAction.request := by
  cases collected : contribution.collected? with
  | some action => exact (collects_of_collected? contributed collected).request?.1
  | none =>
      cases asked : attr.request? registry with
      | none => rfl
      | some request =>
          have grammatical := (grammatical_iff actions).mpr ⟨contribution, contributed⟩
          obtain ⟨action, collects, _⟩ := grammatical.exists_collects asked
          rw [ofAttribute_of_collects collects] at contributed
          cases contributed
          cases collected

theorem passes (contributed : ofAttribute registry actions attr = .ok contribution)
    (through : attr.isPassedThrough = true) : attr.Passes actions contribution.passed? := by
  obtain ⟨key, value⟩ := attr
  rcases Attribute.isPassedThrough_iff.mp through with render | ⟨start, rest, marked, same⟩
  · dsimp only at render
    subst render
    rw [ofAttribute, AttributeRole.ofKey_renderKey] at contributed
    obtain ⟨lines, compiled, rfl⟩ := map_eq_ok_iff.mp contributed
    exact .render compiled
  · dsimp only at same
    subst same
    rw [ofAttribute, AttributeRole.ofKey_marked marked] at contributed
    obtain ⟨line, compiled, contributed⟩ := bind_eq_ok_iff.mp contributed
    cases contributed
    exact .bindingKey marked compiled

theorem passed?_eq_nil (contributed : ofAttribute registry actions attr = .ok contribution)
    (stays : attr.isPassedThrough = false) : contribution.passed? = [] := by
  have offered := offered registry actions attr
  generalize ofAttribute registry actions attr = result at contributed offered
  cases offered with
  | render value =>
      rw [Attribute.isPassedThrough_iff.mpr (.inl rfl)] at stays
      cases stays
  | bindingKey marked rest value =>
      rw [Attribute.isPassedThrough_iff.mpr (.inr ⟨_, rest, marked, rfl⟩)] at stays
      cases stays
  | unreadKey => cases contributed
  | action =>
      obtain ⟨_, _, rfl⟩ := map_eq_ok_iff.mp contributed
      rfl
  | skipped =>
      cases contributed
      rfl

theorem skipped_of_ignored (actions : ActionMap) (ignored : attr.Ignored registry) :
    ofAttribute registry actions attr = .ok .skipped := by
  cases ignored with
  | @foreign key value unmarked =>
      have role : AttributeRole.ofKey key = .foreign := by
        have other : key ≠ renderKey := by
          rw [AttributeRole.renderKey_eq]
          exact unmarked actionKeyStart (by simp) "render"
        have absent (start : String) (listed : start ∈
            [bindingKeyStart, alternativeKeyStart, actionKeyStart]) :
            Text.afterStart? start key = none :=
          Text.afterStart?_eq_none_iff.mpr (unmarked start listed)
        simp [AttributeRole.ofKey, other, absent]
      rw [ofAttribute, role]
  | unregistered other readKey absent =>
      rw [ofAttribute_action registry actions other readKey, absent]

end Contribution

end EventBindings
