import EventBindings.Proofs.Element.MapLookups
import EventBindings.Proofs.Handler.Actions
import EventBindings.Proofs.Lines

namespace EventBindings

/-!
The text of a compiled element. It has one line for each attribute, and the
attributes can be read back from it, as long as no value has a line feed. A line
feed in a value comes from the caller: from the map, or from the value of a
binding that was already written as one.
-/

open Text

section Origin

variable {registry : Registry} {actions : ActionMap}

/-- The attribute gives the line to its element. -/
inductive Attribute.Gives (registry : Registry) (actions : ActionMap) (attr line : Attribute) : Prop
  | passed {lines : List Attribute} (passes : attr.Passes actions lines) (member : line ∈ lines)
  | translated {request : ActionRequest} {lines : List Attribute}
      (asked : attr.request? registry = some request)
      (translated : request.translate actions = .ok lines) (member : line ∈ lines)

/-- Every line of a compiled element is given by one of its attributes. -/
theorem exists_gives_of_compileElement {attributes out : List Attribute}
    (compiled : compileElement attributes registry actions = .ok out) :
    ∀ line ∈ out, ∃ attr ∈ attributes, attr.Gives registry actions line := by
  obtain ⟨compilable, rfl⟩ := compileElement_eq_ok_iff.mp compiled
  intro line member
  rcases List.mem_append.mp member with passed | emitted
  · obtain ⟨attr, inElement, inLines⟩ := List.mem_flatMap.mp passed
    have through : attr.isPassedThrough = true := by
      by_contra stays
      rw [Attribute.passedLines_of_stays (Bool.eq_false_iff.mpr stays)] at inLines
      cases inLines
    have passes : attr.Passes actions (attr.passedLines registry actions) :=
      Attribute.passes_passedLines (compilable.each attr inElement).grammatical through
    exact ⟨attr, inElement, .passed passes inLines⟩
  · obtain ⟨request, inSorted, inLines⟩ := List.mem_flatMap.mp emitted
    obtain ⟨attr, inElement, asked⟩ := mem_sortedRequests_iff.mp inSorted
    obtain ⟨lines, translated⟩ := (compilable.each attr inElement).translated request asked
    rw [ActionRequest.lines_of_translate translated] at inLines
    exact ⟨attr, inElement, .translated asked translated inLines⟩

end Origin

theorem oneLine_callText {name : String} (isName : IsName name) : OneLine (callText name) := by
  simp only [callText, oneLine_append_iff]
  exact ⟨⟨by decide, isName.oneLine⟩, by decide⟩

theorem oneLine_bindingAction {value : String} (oneLine : OneLine value) :
    OneLine (bindingAction value) := by
  unfold bindingAction
  split
  · decide
  · exact oneLine.trim

theorem oneLine_quoteParam {param : String} (isName : IsName param) :
    OneLine (Handler.quoteParam param) := by
  simp only [Handler.quoteParam, oneLine_append_iff]
  exact ⟨⟨by decide, isName.oneLine⟩, by decide⟩

theorem oneLine_toggleClassText {classes : List String} (named : ∀ name ∈ classes, IsName name) :
    OneLine (Handler.toggleClassText classes) := by
  have quoted : OneLine (String.intercalate "," (classes.map Handler.quoteParam)) := by
    apply OneLine.intercalate (by decide)
    rw [List.forall_mem_map]
    exact fun name member => oneLine_quoteParam (named name member)
  unfold Handler.toggleClassText
  exact oneLine_append_iff.mpr ⟨oneLine_append_iff.mpr ⟨by decide, quoted⟩, by decide⟩

theorem oneLine_dispatchText {events : List String} (named : ∀ name ∈ events, IsName name) :
    OneLine (Handler.dispatchText events) := by
  apply OneLine.intercalate (by decide)
  rw [List.forall_mem_map]
  intro name member
  simp only [oneLine_append_iff]
  exact ⟨⟨by decide, oneLine_quoteParam (named name member)⟩, by decide⟩

theorem oneLine_redirectText {path : Option String} (named : ∀ name ∈ path, IsName name) :
    OneLine (Handler.redirectText path) := by
  have behindSlash : OneLine (path.getD "") := by
    cases path with
    | none => decide
    | some name => exact (named name rfl).oneLine
  unfold Handler.redirectText Handler.quoteParam
  simp only [oneLine_append_iff]
  exact ⟨⟨by decide, ⟨by decide, by decide, behindSlash⟩, by decide⟩, by decide⟩

theorem Handler.oneLine_of_scriptOf {attr : ActionAttribute} {name : String}
    (isName : IsName attr.actionName) (given : ∀ param ∈ attr.givenParams, IsName param)
    (named : scriptOf attr = .ok name) : OneLine name := by
  unfold scriptOf at named
  split at named
  next script inName =>
    obtain ⟨_, _, same⟩ := bind_eq_ok_iff.mp named
    cases same
    have actionName := isName.oneLine
    rw [(scriptName?_eq_some_iff.mp inName).2, oneLine_append_iff] at actionName
    exact actionName.2
  next =>
    have params := params_of_oneParam named
    exact (given name (by simp [params])).oneLine

section Map

variable {actions : ActionMap}
  (mapOneLine : ∀ name action, actions.get? name = some action → OneLine action)
include mapOneLine

theorem oneLine_actionText {action : Option ActionRef} (named : ∀ ref ∈ action, ref.Named) :
    OneLine (Resolver.actionText { actions } action) := by
  cases action with
  | none => exact oneLine_callText (by decide)
  | some ref =>
      cases ref with
      | call name => exact oneLine_callText (named _ rfl)
      | named name =>
          rw [Resolver.actionText]
          cases found : actions.get? name with
          | none => exact IsName.oneLine (named _ rfl)
          | some action => exact mapOneLine name action found

theorem oneLine_of_compileExpression {text : String} {lines : List Attribute}
    (compiled : compileExpression text actions = .ok lines) :
    ∀ line ∈ lines, OneLine line.value := by
  obtain ⟨expressions, parsed, compiled⟩ := bind_eq_ok_iff.mp compiled
  cases compiled
  intro line member
  obtain ⟨binding, inExpressions, rfl⟩ := List.mem_map.mp member
  exact oneLine_actionText mapOneLine (named_of_parse parsed binding inExpressions).action

theorem oneLine_scriptAction {name : String} (oneLine : OneLine name) :
    OneLine (Handler.scriptAction actions name) := by
  unfold Handler.scriptAction
  split
  next action found =>
    split
    · exact oneLine
    · exact mapOneLine name action found
  next => exact oneLine

/-- A line feed in the action of a handler comes from the map. -/
theorem Handler.Supplies.oneLine {handler : Handler} {attr : ActionAttribute} {action : String}
    (supplies : Supplies attr actions handler action) (isName : IsName attr.actionName)
    (named : ∀ param ∈ attr.params, IsName param) : OneLine action := by
  have given : ∀ param ∈ attr.givenParams, IsName param := by
    rwa [ActionAttribute.givenParams_of_named named]
  cases supplies with
  | refresh | remove | removeParent | append | prepend | reset | toggleDisabled => decide
  | toggleClass => exact oneLine_toggleClassText given
  | dispatch => exact oneLine_dispatchText given
  | run _ found => exact mapOneLine _ _ found
  | redirect params =>
      rw [params] at given
      exact oneLine_redirectText fun name member => given name (Option.mem_toList.mpr member)
  | script named => exact oneLine_scriptAction mapOneLine (oneLine_of_scriptOf isName given named)

/-- A line feed in what an attribute gives comes from the map or from the value of a
binding. -/
theorem Attribute.Gives.oneLine {registry : Registry} {attr line : Attribute}
    (gives : attr.Gives registry actions line)
    (bindings : ∀ start ∈ ["@fir:", "x-on:fir:"], ∀ rest, attr.key = start ++ rest →
      OneLine attr.value) :
    OneLine line.value := by
  cases gives with
  | passed passes member =>
      cases passes with
      | render compiled => exact oneLine_of_compileExpression mapOneLine compiled line member
      | @bindingKey start rest value _ marked compiled =>
          cases List.mem_singleton.mp member
          obtain ⟨binding, _, action, rfl⟩ := exists_binding_of_compileBindingKey compiled
          have listed : start ∈ ["@fir:", "x-on:fir:"] := by
            simpa [bindingKeyStart, alternativeKeyStart] using marked
          rw [ResolvedBinding.toAttribute, action]
          exact oneLine_bindingAction (bindings start listed rest rfl)
  | translated asked translated member =>
      obtain ⟨_, read, _⟩ := request?_eq_some_iff.mp asked
      obtain ⟨action, supplies, supplied⟩ := Handler.supplies_of_translate translated
      rw [supplied line member]
      exact supplies.oneLine mapOneLine (ActionAttribute.isName_of_parse read)
        (ActionAttribute.named_of_parse read)

end Map

/-- The text of a compiled element can be read back, unless a value has a line feed.
There is a line for each attribute, and no text where there is none. The key of a
line ends at the first equals sign with a quotation mark behind it and the value at
the last quotation mark, whatever there is in the value. So elements with the same
text have the same attributes. And a value has a line feed only if the map has one in
an action, or the value of an attribute that is a binding already. -/
theorem renderLines_readable {attributes out : List Attribute} {registry : Registry}
    {actions : ActionMap} (compiled : compileElement attributes registry actions = .ok out) :
    ((∀ attr ∈ out, OneLine attr.value) →
      (renderLines out = "" ↔ out = []) ∧
      (out ≠ [] → Text.lines (renderLines out) = out.map Attribute.line) ∧
      (∀ attr ∈ out, Attribute.ofLine? attr.line = some attr) ∧
      readLines? (renderLines out) = some out ∧
      ∀ otherAttributes otherRegistry otherActions other,
        compileElement otherAttributes otherRegistry otherActions = .ok other →
        (∀ attr ∈ other, OneLine attr.value) →
        renderLines other = renderLines out → other = out) ∧
    ((∀ name action, actions.get? name = some action → OneLine action) →
      (∀ attr ∈ attributes, ∀ start ∈ ["@fir:", "x-on:fir:"], ∀ rest,
        attr.key = start ++ rest → OneLine attr.value) →
      ∀ attr ∈ out, OneLine attr.value) := by
  have emitted := emitted_of_compileElement compiled
  refine ⟨fun oneLine => ?readable, ?values⟩
  case readable =>
    have read := readLines?_renderLines emitted oneLine
    refine ⟨renderLines_eq_empty_iff, lines_renderLines emitted oneLine,
      fun attr member => (emitted attr member).ofLine?_line, read, ?_⟩
    intro _ _ _ other otherCompiled otherOneLine same
    have otherRead := readLines?_renderLines (emitted_of_compileElement otherCompiled) otherOneLine
    rw [same, read] at otherRead
    exact (Option.some.inj otherRead).symm
  case values =>
    intro mapOneLine bindings line member
    obtain ⟨attr, inElement, gives⟩ := exists_gives_of_compileElement compiled line member
    exact gives.oneLine mapOneLine (bindings attr inElement)

/-- Quotation marks and equals signs in a value do no harm. -/
theorem renderLines_readable_quoted :
    compileElement [⟨"x-fir-toggle-disabled", "create"⟩, ⟨"@fir:save", "a=\"b\""⟩] .builtin ∅ =
      .ok [⟨"@fir:save:ok", "a=\"b\""⟩,
        ⟨"@fir:[create:pending,create:done].nohtml", "$fir.toggleDisabled()"⟩] ∧
    Text.lines ("@fir:save:ok=\"a=\"b\"\"\n" ++
        "@fir:[create:pending,create:done].nohtml=\"$fir.toggleDisabled()\"") =
      ["@fir:save:ok=\"a=\"b\"\"",
        "@fir:[create:pending,create:done].nohtml=\"$fir.toggleDisabled()\""] ∧
    Attribute.ofLine? "@fir:save:ok=\"a=\"b\"\"" = some ⟨"@fir:save:ok", "a=\"b\""⟩ := by
  have compiled : compileElement
      [⟨"x-fir-toggle-disabled", "create"⟩, ⟨"@fir:save", "a=\"b\""⟩] .builtin ∅ =
        .ok [⟨"@fir:save:ok", "a=\"b\""⟩,
          ⟨"@fir:[create:pending,create:done].nohtml", "$fir.toggleDisabled()"⟩] := by
    decide +kernel
  have given : ∀ attr ∈ ([⟨"x-fir-toggle-disabled", "create"⟩, ⟨"@fir:save", "a=\"b\""⟩] :
      List Attribute), OneLine attr.value := by decide
  obtain ⟨readable, values⟩ := renderLines_readable compiled
  obtain ⟨_, split, read, _⟩ := readable (values nofun fun attr member _ _ _ _ => given attr member)
  exact ⟨compiled, split (List.cons_ne_nil _ _), read _ List.mem_cons_self⟩

end EventBindings
