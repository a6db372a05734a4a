import EventBindings.Proofs.Element.Emission
import EventBindings.Proofs.Element.Errors

namespace EventBindings

/-!
An element of one attribute. Translating an action attribute by itself gives the
lines of the element that has no other attribute, and fails where that element
fails.
-/

/-- The text of what an attribute compiles to, or none where it is skipped. -/
def linesText? (lines : List Attribute) : Option String :=
  if lines.isEmpty then none else some (renderLines lines)

theorem linesText?_of_ne_nil {lines : List Attribute} (nonempty : lines ≠ []) :
    linesText? lines = some (renderLines lines) := by
  simp [linesText?, nonempty]

theorem linesText?_eq_none_iff {lines : List Attribute} : linesText? lines = none ↔ lines = [] := by
  simp [linesText?]

theorem linesText?_eq_some_iff {lines : List Attribute} {text : String} :
    linesText? lines = some text ↔ lines ≠ [] ∧ renderLines lines = text := by
  simp [linesText?]

theorem Resolver.compile_ne_nil {text : String} {expressions : List Expression}
    (parsed : parse text = .ok expressions) (resolver : Resolver) :
    resolver.compile expressions ≠ [] := by
  obtain ⟨nonempty, each⟩ := ne_nil_of_parse parsed
  obtain ⟨others, last, rfl⟩ := exists_concat nonempty
  have lastNonempty := (each last (by simp)).1
  simp [compile, lastNonempty]

theorem compileExpression_ne_nil {text : String} {actions : ActionMap} {lines : List Attribute}
    (compiled : compileExpression text actions = .ok lines) : lines ≠ [] := by
  obtain ⟨expressions, parsed, compiled⟩ := bind_eq_ok_iff.mp compiled
  cases compiled
  exact Resolver.compile_ne_nil parsed _

theorem Handler.ne_nil_of_translate {handler : Handler} {attr : ActionAttribute}
    {actions : ActionMap} {lines : List Attribute}
    (translated : handler.translate attr actions = .ok lines) : lines ≠ [] := by
  obtain ⟨expressions, resolver, parsed, _, rfl⟩ := exists_resolver_of_translate translated
  exact Resolver.compile_ne_nil parsed resolver

theorem Handler.translate_of_unread {handler : Handler} {attr : ActionAttribute}
    {actions : ActionMap} {fault : GrammarError} (unread : parse attr.value = .error fault) :
    handler.translate attr actions = .error (.grammar fault) := by
  rw [translate, unread]
  rfl

variable {registry : Registry} {actions : ActionMap}

/-- One attribute has no other to conflict with and none to be sorted among. -/
theorem compileElement_singleton (attr : Attribute) :
    compileElement [attr] registry actions =
      match Contribution.ofAttribute registry actions attr with
      | .error fault => .error (.grammar fault)
      | .ok (.passed lines) => .ok lines
      | .ok (.collected action) => action.handler.translate action.attr actions
      | .ok .skipped => .ok [] := by
  rw [compileElement, List.mapM_cons, List.mapM_nil]
  cases Contribution.ofAttribute registry actions attr with
  | error fault => rfl
  | ok contribution =>
      simp only [ok_bind, pure_eq_ok, mapError_ok]
      cases contribution with
      | passed lines =>
          have sorted : byPrecedence ([Contribution.passed lines].filterMap
              Contribution.collected?) = [] := List.mergeSort_nil
          rw [sorted]
          simp [checkConflicts, firstPair?, Contribution.passed?]
      | collected action =>
          have sorted : byPrecedence ([Contribution.collected action].filterMap
              Contribution.collected?) = [action] := List.mergeSort_singleton action
          rw [sorted]
          cases translated : action.handler.translate action.attr actions <;>
            simp [checkConflicts, firstPair?, Contribution.passed?, translated]
      | skipped =>
          have sorted : byPrecedence ([Contribution.skipped].filterMap
              Contribution.collected?) = [] := List.mergeSort_nil
          rw [sorted]
          simp [checkConflicts, firstPair?, Contribution.passed?]

theorem translateAction_renderKey (value : String) :
    translateAction renderKey value registry actions =
      some <$> (translateExpression value actions).mapError .grammar := by
  rw [translateAction, if_pos rfl]
  cases translateExpression value actions <;> rfl

theorem compileElement_renderKey (value : String) :
    compileElement [⟨renderKey, value⟩] registry actions =
      (compileExpression value actions).mapError .grammar := by
  rw [compileElement_singleton, Contribution.ofAttribute, AttributeRole.ofKey_renderKey]
  cases compileExpression value actions <;> rfl

/-- That an element reads the value before the handler does makes no difference. -/
theorem compileElement_of_registered {key value : String} {parsed : ActionKey} {handler : Handler}
    (other : key ≠ renderKey) (readKey : ActionKey.parse key = .ok parsed)
    (registered : registry.resolve? parsed.name = some handler) :
    compileElement [⟨key, value⟩] registry actions =
      handler.translate ⟨key, parsed.name, parsed.params, value⟩ actions := by
  rw [compileElement_singleton, Contribution.ofAttribute_action registry actions other readKey,
    registered]
  dsimp only
  generalize (⟨key, parsed.name, parsed.params, value⟩ : ActionAttribute) = attr
  cases collects : CollectedAction.collect handler attr with
  | error fault => exact (Handler.translate_of_unread (collect_eq_error_iff.mp collects)).symm
  | ok action =>
      obtain ⟨events, _, same⟩ := bind_eq_ok_iff.mp collects
      cases same
      rfl

theorem translateAction_eq (rest value : String) :
    translateAction (actionKeyStart ++ rest) value registry actions =
      linesText? <$> compileElement [⟨actionKeyStart ++ rest, value⟩] registry actions := by
  by_cases render : actionKeyStart ++ rest = renderKey
  · rw [render, translateAction_renderKey, compileElement_renderKey, translateExpression]
    cases compiled : compileExpression value actions with
    | error fault => rfl
    | ok lines => simp [linesText?_of_ne_nil (compileExpression_ne_nil compiled)]
  rw [translateAction, if_neg render, ActionAttribute.parse]
  cases readKey : ActionKey.parse (actionKeyStart ++ rest) with
  | error cause =>
      have unread : Contribution.ofAttribute registry actions ⟨actionKeyStart ++ rest, value⟩ =
          .error _ := Contribution.ofAttribute_eq_error_iff.mpr (.actionKey render readKey)
      rw [compileElement_singleton, unread]
      rfl
  | ok parsed =>
      simp only [mapError_ok, ok_bind]
      cases registered : registry.resolve? parsed.name with
      | none =>
          rw [compileElement_singleton, Contribution.ofAttribute_action registry actions render
            readKey, registered]
          rfl
      | some handler =>
          rw [compileElement_of_registered render readKey registered]
          dsimp only
          cases translated : handler.translate ⟨actionKeyStart ++ rest, parsed.name,
              parsed.params, value⟩ actions with
          | error error => rfl
          | ok lines => simp [linesText?_of_ne_nil (Handler.ne_nil_of_translate translated)]

/-- Translating an attribute by itself agrees with compiling the element that has
no other one: both fail with the same error, or one gives no text and the other
no lines, or the text is that of the lines. An expression to be rendered is
translated by both. -/
theorem translateAction_agrees (rest value : String) (registry : Registry) (actions : ActionMap) :
    let key := "x-fir-" ++ rest
    (∀ error, translateAction key value registry actions = .error error ↔
      compileElement [⟨key, value⟩] registry actions = .error error) ∧
    (translateAction key value registry actions = .ok none ↔
      compileElement [⟨key, value⟩] registry actions = .ok []) ∧
    (∀ text, translateAction key value registry actions = .ok (some text) ↔
      ∃ out, out ≠ [] ∧ compileElement [⟨key, value⟩] registry actions = .ok out ∧
        text = renderLines out) ∧
    translateAction "x-fir-render" value registry actions =
      some <$> (translateExpression value actions).mapError .grammar ∧
    renderLines <$> compileElement [⟨"x-fir-render", value⟩] registry actions =
      (translateExpression value actions).mapError .grammar := by
  dsimp only
  have same : translateAction ("x-fir-" ++ rest) value registry actions =
      linesText? <$> compileElement [⟨"x-fir-" ++ rest, value⟩] registry actions :=
    translateAction_eq rest value
  refine ⟨?failing, ?skipped, ?written, translateAction_renderKey value, ?rendered⟩
  case failing =>
    intro error
    rw [same, map_eq_error_iff]
  case skipped =>
    rw [same, map_eq_ok_iff]
    simp [linesText?_eq_none_iff]
  case written =>
    intro text
    rw [same, map_eq_ok_iff]
    simp only [linesText?_eq_some_iff]
    constructor
    · rintro ⟨out, compiled, nonempty, rfl⟩
      exact ⟨out, nonempty, compiled, rfl⟩
    · rintro ⟨out, nonempty, compiled, rfl⟩
      exact ⟨out, compiled, nonempty, rfl⟩
  case rendered =>
    have compiled : compileElement [⟨"x-fir-render", value⟩] registry actions =
        (compileExpression value actions).mapError .grammar := compileElement_renderKey value
    rw [compiled, translateExpression]
    cases compileExpression value actions <;> rfl

end EventBindings
