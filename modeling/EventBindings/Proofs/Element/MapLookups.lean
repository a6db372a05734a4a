import EventBindings.Proofs.Element.Arrangement
import EventBindings.Proofs.Element.Emission

namespace EventBindings

/-!
What an element takes from the caller's map. It looks up the names that its
attributes refer to and nothing else, and what it finds there becomes a value,
never a key. Only an action that has to be in the map can fail for the lack of
one.
-/

/-- The attribute refers to a name of the map: in an expression the name stands
as an action, and otherwise the key names the action to run. -/
inductive Attribute.References (registry : Registry) : Attribute → String → Prop
  | render {value name : String} {expressions : List Expression} {binding : Binding}
      (parsed : parse value = .ok expressions) (member : binding ∈ expressions.flatten)
      (named : binding.action = some (.named name)) : References registry ⟨renderKey, value⟩ name
  | run {key value name : String} {parsed : ActionKey} (other : key ≠ renderKey)
      (readKey : ActionKey.parse key = .ok parsed)
      (registered : registry.resolve? parsed.name = some .run) (param : parsed.params = [name]) :
      References registry ⟨key, value⟩ name
  | scriptInName {key value name : String} {parsed : ActionKey} (other : key ≠ renderKey)
      (readKey : ActionKey.parse key = .ok parsed)
      (registered : registry.resolve? parsed.name = some .script)
      (named : parsed.name = "action-" ++ name) : References registry ⟨key, value⟩ name
  | scriptInParam {key value name : String} {parsed : ActionKey} (other : key ≠ renderKey)
      (readKey : ActionKey.parse key = .ok parsed)
      (registered : registry.resolve? parsed.name = some .script)
      (named : parsed.name = "js") (param : parsed.params = [name]) :
      References registry ⟨key, value⟩ name

namespace Resolver

/-- The settings that show in keys. -/
def keySettings (resolver : Resolver) : Resolver :=
  { resolver with actions := ∅, action := none }

theorem map_key_compile (resolver : Resolver) (expressions : List Expression) :
    (resolver.compile expressions).map Attribute.key =
      (resolver.keySettings.compile expressions).map Attribute.key := by
  rw [compile, compile, List.map_map, List.map_map]
  rfl

theorem map_key_compile_congr {resolver other : Resolver}
    (same : resolver.keySettings = other.keySettings) (expressions : List Expression) :
    (resolver.compile expressions).map Attribute.key =
      (other.compile expressions).map Attribute.key := by
  rw [map_key_compile, map_key_compile other, same]

theorem actionText_congr {left right : ActionMap} {action : Option ActionRef}
    (agree : ∀ name, action = some (.named name) → left.get? name = right.get? name) :
    actionText { actions := left } action = actionText { actions := right } action := by
  cases action with
  | none => rfl
  | some ref =>
      cases ref with
      | call name => rfl
      | named name => simp only [actionText, agree name rfl]

end Resolver

section Expressions

variable {left right : ActionMap} {text : String}

theorem map_key_compileExpression (text : String) (left right : ActionMap) :
    List.map Attribute.key <$> compileExpression text left =
      List.map Attribute.key <$> compileExpression text right := by
  cases parsed : parse text with
  | error fault => simp only [compileExpression, parsed, error_bind]
  | ok expressions =>
      simp only [compileExpression, parsed, ok_bind, pure_eq_ok, Except.map_ok]
      have settings : Resolver.keySettings { actions := left } =
          Resolver.keySettings { actions := right } := rfl
      rw [Resolver.map_key_compile_congr settings]

theorem compileExpression_congr (agree : ∀ expressions, parse text = .ok expressions →
      ∀ binding ∈ expressions.flatten, ∀ name, binding.action = some (.named name) →
        left.get? name = right.get? name) :
    compileExpression text left = compileExpression text right := by
  cases parsed : parse text with
  | error fault => simp only [compileExpression, parsed, error_bind]
  | ok expressions =>
      simp only [compileExpression, parsed, ok_bind, pure_eq_ok, Except.ok.injEq]
      apply List.map_congr_left
      intro binding member
      have action := Resolver.actionText_congr (agree expressions parsed binding member)
      simp only [Resolver.resolve, Option.getD_none, action]
      rfl

end Expressions

namespace Handler

/-- The handler looks the name up for the attribute. -/
inductive LooksUp (attr : ActionAttribute) : Handler → String → Prop
  | run {name : String} (given : Handler.run.oneParam attr.givenParams = .ok name) :
      LooksUp attr .run name
  | script {name : String} (given : scriptOf attr = .ok name) : LooksUp attr .script name

variable {handler : Handler} {attr : ActionAttribute} {bindings : List Binding}
  {left right : ActionMap}

theorem resolver_congr
    (agree : ∀ name, LooksUp attr handler name → left.get? name = right.get? name) :
    handler.resolver attr bindings left = handler.resolver attr bindings right := by
  cases handler with
  | run =>
      cases given : Handler.run.oneParam attr.givenParams with
      | error error => simp only [resolver, given, error_bind]
      | ok name => simp only [resolver, given, ok_bind, mappedAction, agree name (.run given)]
  | script =>
      cases given : scriptOf attr with
      | error error => simp only [resolver, given, error_bind]
      | ok name => simp only [resolver, given, ok_bind, scriptAction, agree name (.script given)]
  | _ => rfl

theorem translate_congr
    (agree : ∀ name, LooksUp attr handler name → left.get? name = right.get? name) :
    handler.translate attr left = handler.translate attr right := by
  have resolvers : ∀ bindings, handler.resolver attr bindings left =
      handler.resolver attr bindings right := fun _ => resolver_congr agree
  simp only [translate, resolvers]

theorem keySettings_plainResolver (action other : String) :
    (plainResolver action).keySettings = (plainResolver other).keySettings := rfl

/-- The map shows in no key, and where it need not have the action, it causes no
failure. -/
theorem map_keySettings_resolver (other : handler ≠ .run) (left right : ActionMap) :
    Resolver.keySettings <$> handler.resolver attr bindings left =
      Resolver.keySettings <$> handler.resolver attr bindings right := by
  cases handler with
  | run => exact absurd rfl other
  | script =>
      cases given : scriptOf attr with
      | error error => simp only [resolver, given, error_bind]
      | ok name =>
          simp only [resolver, given, ok_bind, pure_eq_ok, Except.map_ok]
          rw [keySettings_plainResolver]
  | _ => rfl

theorem keySettings_eq_of_resolver {resolver otherResolver : Resolver}
    (resolved : handler.resolver attr bindings left = .ok resolver)
    (otherResolved : handler.resolver attr bindings right = .ok otherResolver) :
    resolver.keySettings = otherResolver.keySettings := by
  obtain ⟨_, states, template, modifiers⟩ := configures_of_resolver resolved
  obtain ⟨_, otherStates, otherTemplate, otherModifiers⟩ := configures_of_resolver otherResolved
  have sameTemplate : resolver.template = otherResolver.template := by
    by_cases inserts : handler ∈ inserting
    · rw [if_pos inserts] at template otherTemplate
      rw [← Option.head?_toList (o := resolver.template), ← template, otherTemplate,
        Option.head?_toList]
    · rw [if_neg inserts] at template otherTemplate
      rw [template, otherTemplate]
  simp only [Resolver.keySettings, states, otherStates, modifiers, otherModifiers, sameTemplate]

theorem map_key_translate (other : handler ≠ .run) (left right : ActionMap) :
    List.map Attribute.key <$> handler.translate attr left =
      List.map Attribute.key <$> handler.translate attr right := by
  cases parsed : parse attr.value with
  | error fault => simp only [translate, parsed, mapError_error, error_bind]
  | ok expressions =>
      have settings : Resolver.keySettings <$> handler.resolver attr expressions.flatten left =
          Resolver.keySettings <$> handler.resolver attr expressions.flatten right :=
        map_keySettings_resolver other left right
      simp only [translate, parsed, mapError_ok, ok_bind]
      split
      · rfl
      · apply map_bind_congr settings
        intro resolver otherResolver _ same
        simp only [pure_eq_ok, Except.map_ok, Resolver.map_key_compile_congr same]

theorem map_key_eq_of_translate {lines otherLines : List Attribute}
    (translated : handler.translate attr left = .ok lines)
    (otherTranslated : handler.translate attr right = .ok otherLines) :
    lines.map Attribute.key = otherLines.map Attribute.key := by
  obtain ⟨expressions, resolver, parsed, resolved, rfl⟩ := exists_resolver_of_translate translated
  obtain ⟨_, otherResolver, parsedToo, otherResolved, rfl⟩ :=
    exists_resolver_of_translate otherTranslated
  rw [parsed] at parsedToo
  cases parsedToo
  exact Resolver.map_key_compile_congr (keySettings_eq_of_resolver resolved otherResolved) _

end Handler

section References

variable {registry : Registry} {attr : Attribute} {name : String}

/-- A name that resolves to scripts without naming one is the name of their
handler. -/
theorem Registry.eq_name_of_resolve? {actionName : String} {handler : Handler}
    (resolved : registry.resolve? actionName = some handler)
    (unnamed : Handler.scriptName? actionName = none) : actionName = handler.name := by
  unfold resolve? at resolved
  split at resolved
  next found =>
    cases resolved
    obtain ⟨known, _⟩ := Option.filter_eq_some_iff.mp found
    exact (Handler.name_of_ofName? known).symm
  next =>
    rw [unnamed] at resolved
    cases resolved

theorem Handler.scriptName?_eq_some_iff {actionName script : String} :
    Handler.scriptName? actionName = some script ↔
      script ≠ "" ∧ actionName = "action-" ++ script := by
  rw [scriptName?, Option.filter_eq_some_iff, Text.afterStart?_eq_some_iff, and_comm]
  simp [scriptNameStart]

theorem Attribute.Collects.references {action : CollectedAction}
    (collects : attr.Collects registry action)
    (looksUp : action.handler.LooksUp action.attr name) : attr.References registry name := by
  obtain @⟨key, value, parsed, handler, events, other, readKey, registered, _⟩ := collects
  have given : ActionAttribute.givenParams ⟨key, parsed.name, parsed.params, value⟩ =
      parsed.params := ActionAttribute.givenParams_of_named (ActionKey.named_of_parse readKey)
  cases looksUp with
  | run oneParam =>
      exact .run other readKey registered (given.symm.trans (Handler.params_of_oneParam oneParam))
  | script scriptOf =>
      unfold Handler.scriptOf at scriptOf
      split at scriptOf
      next script named =>
        obtain ⟨_, _, same⟩ := bind_eq_ok_iff.mp scriptOf
        cases same
        exact .scriptInName other readKey registered (Handler.scriptName?_eq_some_iff.mp named).2
      next unnamed =>
        exact .scriptInParam other readKey registered
          (registry.eq_name_of_resolve? registered unnamed)
          (given.symm.trans (Handler.params_of_oneParam scriptOf))

theorem Attribute.References.isIdentifierPart (references : attr.References registry name) :
    ∀ c ∈ name.toList, Text.isIdentifierPart c = true := by
  cases references with
  | render parsed member action =>
      exact ((named_of_parse parsed _ member).action _ action).isIdentifierPart
  | run _ readKey _ param | scriptInParam _ readKey _ _ param =>
      exact (ActionKey.named_of_parse readKey name (by simp [param])).isIdentifierPart
  | scriptInName _ readKey _ named =>
      intro c member
      apply (ActionKey.isName_of_parse readKey).isIdentifierPart
      rw [named, String.toList_append]
      exact List.mem_append_right _ member

theorem Attribute.not_references_callText (attr : Attribute) (name : String) :
    ¬ attr.References registry (callText name) := by
  intro references
  have part := references.isIdentifierPart '$' (by simp [callText])
  cases part

end References

namespace Contribution

variable {α : Type}

/-- What can be seen of a contribution by looking at its attributes in one way. -/
def view (see : Attribute → α) (contribution : Contribution) : List α × Option CollectedAction :=
  (contribution.passed?.map see, contribution.collected?)

/-- Only an expression depends on the map. -/
theorem view_ofAttribute_congr {see : Attribute → α} {registry : Registry}
    {left right : ActionMap} {attr : Attribute}
    (expression : attr.key = renderKey → List.map see <$> compileExpression attr.value left =
      List.map see <$> compileExpression attr.value right) :
    view see <$> ofAttribute registry left attr = view see <$> ofAttribute registry right attr := by
  cases judged : AttributeRole.ofKey attr.key with
  | render =>
      have alike := expression (AttributeRole.ofKey_eq judged)
      simp only [ofAttribute, judged]
      cases compiled : compileExpression attr.value left <;>
        cases otherCompiled : compileExpression attr.value right <;>
        simp_all [view, passed?, collected?]
  | _ => simp only [ofAttribute, judged]

end Contribution

section Elements

variable {α : Type} {see : Attribute → α} {registry : Registry} {left right : ActionMap}
  {attributes : List Attribute}

theorem map_translateAll_congr {collected : List CollectedAction}
    (translated : ∀ action ∈ collected,
      List.map see <$> action.handler.translate action.attr left =
        List.map see <$> action.handler.translate action.attr right) :
    List.map (List.map see) <$>
        collected.mapM (fun action => action.handler.translate action.attr left) =
      List.map (List.map see) <$>
        collected.mapM fun action => action.handler.translate action.attr right := by
  rw [map_mapM, map_mapM]
  exact mapM_congr translated

theorem map_arrange_congr {contributions others : List Contribution}
    (alike : contributions.map (Contribution.view see) = others.map (Contribution.view see))
    (translated : ∀ action ∈ contributions.filterMap Contribution.collected?,
      List.map see <$> action.handler.translate action.attr left =
        List.map see <$> action.handler.translate action.attr right) :
    List.map see <$> arrange left contributions = List.map see <$> arrange right others := by
  have collected : contributions.filterMap Contribution.collected? =
      others.filterMap Contribution.collected? := by
    have seen := congrArg (List.filterMap Prod.snd) alike
    rwa [List.filterMap_map, List.filterMap_map] at seen
  have passed : (contributions.flatMap Contribution.passed?).map see =
      (others.flatMap Contribution.passed?).map see := by
    have seen := congrArg (List.flatMap Prod.fst) alike
    rw [List.flatMap_map, List.flatMap_map] at seen
    rw [List.map_flatMap, List.map_flatMap]
    exact seen
  simp only [arrange, ← collected]
  cases checkConflicts (byPrecedence (contributions.filterMap Contribution.collected?)) with
  | error error => simp only [error_bind]
  | ok =>
      apply map_bind_congr (map_translateAll_congr fun action member =>
        translated action (List.mem_mergeSort.mp member))
      intro lines otherLines _ same
      simp only [pure_eq_ok, Except.map_ok, List.map_append, List.map_flatten, passed, same]

theorem map_compileElement_congr
    (expressions : ∀ attr ∈ attributes, attr.key = renderKey →
      List.map see <$> compileExpression attr.value left =
        List.map see <$> compileExpression attr.value right)
    (translated : ∀ attr ∈ attributes, ∀ action, attr.Collects registry action →
      List.map see <$> action.handler.translate action.attr left =
        List.map see <$> action.handler.translate action.attr right) :
    List.map see <$> compileElement attributes registry left =
      List.map see <$> compileElement attributes registry right := by
  have alike : List.map (Contribution.view see) <$>
        (attributes.mapM (Contribution.ofAttribute registry left)).mapError ActionError.grammar =
      List.map (Contribution.view see) <$>
        (attributes.mapM (Contribution.ofAttribute registry right)).mapError .grammar := by
    have views : attributes.mapM (fun attr => Contribution.view see <$>
          Contribution.ofAttribute registry left attr) =
        attributes.mapM fun attr => Contribution.view see <$>
          Contribution.ofAttribute registry right attr :=
      mapM_congr fun attr member => Contribution.view_ofAttribute_congr (expressions attr member)
    rw [map_mapError, map_mapError, map_mapM, map_mapM, views]
  apply map_bind_congr alike
  intro contributions others contributed same
  apply map_arrange_congr same
  intro action member
  rw [mapError_eq_ok_iff] at contributed
  obtain ⟨attr, inElement, collects⟩ := (mem_collected_iff contributed).mp member
  exact translated attr inElement action collects

/-- Maps that agree on what the element refers to are the same to it. -/
theorem compileElement_congr (agree : ∀ attr ∈ attributes, ∀ name,
      attr.References registry name → left.get? name = right.get? name) :
    compileElement attributes registry left = compileElement attributes registry right := by
  have same : List.map id <$> compileElement attributes registry left =
      List.map id <$> compileElement attributes registry right := by
    apply map_compileElement_congr
    case expressions =>
      intro attr member render
      obtain ⟨key, value⟩ := attr
      dsimp only at render
      subst render
      rw [compileExpression_congr]
      intro expressions parsed binding inText name named
      exact agree _ member name (.render parsed inText named)
    case translated =>
      intro attr member action collects
      rw [Handler.translate_congr fun name looksUp =>
        agree attr member name (collects.references looksUp)]
  simpa using same

theorem map_key_eq_of_compileElement {out other : List Attribute}
    (compiled : compileElement attributes registry left = .ok out)
    (otherCompiled : compileElement attributes registry right = .ok other) :
    out.map Attribute.key = other.map Attribute.key := by
  have alike : List.map Attribute.key <$> compileElement attributes registry left =
      List.map Attribute.key <$> compileElement attributes registry right := by
    apply map_compileElement_congr
    case expressions => exact fun attr _ _ => map_key_compileExpression attr.value left right
    case translated =>
      intro attr member action collects
      have asked := collects.request?.1
      obtain ⟨lines, translated⟩ :=
        ((compilable_of_compileElement compiled).each attr member).translated _ asked
      obtain ⟨otherLines, otherTranslated⟩ :=
        ((compilable_of_compileElement otherCompiled).each attr member).translated _ asked
      have keys := Handler.map_key_eq_of_translate translated otherTranslated
      change List.map Attribute.key <$> action.request.translate left =
        List.map Attribute.key <$> action.request.translate right
      rw [translated, otherTranslated, Except.map_ok, Except.map_ok, keys]
  rw [compiled, otherCompiled] at alike
  exact Except.ok.inj alike

/-- Where no action has to be in the map, the map changes values only. -/
theorem map_key_compileElement
    (independent : ∀ attr ∈ attributes, ∀ request ∈ attr.request? registry,
      request.handler ≠ .run) (left right : ActionMap) :
    List.map Attribute.key <$> compileElement attributes registry left =
      List.map Attribute.key <$> compileElement attributes registry right := by
  apply map_compileElement_congr
  case expressions => exact fun attr _ _ => map_key_compileExpression attr.value left right
  case translated =>
    intro attr member action collects
    have other : action.handler ≠ .run := independent attr member _ collects.request?.1
    exact Handler.map_key_translate other left right

end Elements

/-- What the map may change about an element. Maps that agree on every name that
the element refers to give the same result, so an entry under any other name has
no effect, and neither has one that is spelled like a built-in call. If the
element compiles under two maps, only values differ. If none of its actions has
to be in the map, every map lets it compile or gives it the same error. -/
theorem compileElement_lookups (attributes : List Attribute) (registry : Registry)
    (left right : ActionMap) :
    ((∀ attr ∈ attributes, ∀ name, attr.References registry name →
        left.get? name = right.get? name) →
      compileElement attributes registry left = compileElement attributes registry right) ∧
    (∀ name action, (∀ attr ∈ attributes, ¬ attr.References registry name) →
      compileElement attributes registry (left.insert name action) =
        compileElement attributes registry left) ∧
    (∀ name action, compileElement attributes registry (left.insert (callText name) action) =
      compileElement attributes registry left) ∧
    (∀ out other, compileElement attributes registry left = .ok out →
      compileElement attributes registry right = .ok other →
      out.length = other.length ∧ out.map Attribute.key = other.map Attribute.key) ∧
    ((∀ attr ∈ attributes, ∀ request ∈ attr.request? registry, request.handler ≠ .run) →
      ((∃ out, compileElement attributes registry left = .ok out) ↔
        ∃ out, compileElement attributes registry right = .ok out) ∧
      ∀ error, compileElement attributes registry left = .error error ↔
        compileElement attributes registry right = .error error) := by
  have unused (name action : String) (unreferenced : ∀ attr ∈ attributes,
      ¬ attr.References registry name) :
      compileElement attributes registry (left.insert name action) =
        compileElement attributes registry left := by
    apply compileElement_congr
    intro attr member asked references
    rw [ActionMap.get?_insert, if_neg]
    rintro rfl
    exact unreferenced attr member references
  refine ⟨compileElement_congr, unused, ?calls, ?keys, ?independent⟩
  case calls =>
    exact fun name action => unused _ action fun attr _ => attr.not_references_callText name
  case keys =>
    intro out other compiled otherCompiled
    have keys := map_key_eq_of_compileElement compiled otherCompiled
    exact ⟨by simpa using congrArg List.length keys, keys⟩
  case independent =>
    intro independent
    have alike := map_key_compileElement independent left right
    exact ⟨exists_ok_iff_of_map_eq alike, fun _ => eq_error_iff_of_map_eq alike⟩

end EventBindings
