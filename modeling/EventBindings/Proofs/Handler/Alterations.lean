import EventBindings.Proofs.KeyEvents

namespace EventBindings

/-!
What handlers change. A handler compiles the bindings of a value as they compile
by themselves, but for the action, the modifier that saves rendering text, the
template in the key of an insertion, and the outcomes for which an element is
disabled.
-/

/-- The binding as it compiles by itself, under no map. -/
def Binding.plain (binding : Binding) : ResolvedBinding :=
  Resolver.resolve {} binding

theorem compileExpression_plain {text : String} {expressions : List Expression}
    (parsed : parse text = .ok expressions) : compileExpression text ∅ =
      .ok (expressions.flatten.map fun binding => binding.plain.toAttribute) := by
  rw [compileExpression, parsed]
  rfl

namespace Handler

/-- The events for which an element is disabled and enabled again. -/
def toggledEvents (clause : EventClause) : List Event :=
  match clause.state with
  | some state => [⟨clause.name, state⟩]
  | none => [⟨clause.name, .pending⟩, ⟨clause.name, .done⟩]

/-- The binding as the handler compiles it, compared with the binding by
itself. -/
structure Alters (handler : Handler) (attr : ActionAttribute) (action : String)
    (binding : Binding) (altered : ResolvedBinding) : Prop where
  events : handler ≠ .toggleDisabled → altered.events = binding.plain.events
  toggled : handler = .toggleDisabled →
    binding.plain.events = binding.events.map EventClause.event ∧
      altered.events = binding.events.flatMap toggledEvents
  template : ¬ (handler ∈ inserting ∧ ∃ param ∈ attr.params, Text.trim param ≠ "") →
    altered.template = binding.plain.template
  inserted : handler ∈ inserting → ∀ param ∈ attr.params, Text.trim param ≠ "" →
    altered.template = some (Text.trim param)
  modifiers : ∀ name, name ∈ altered.modifiers ↔
    name ∈ binding.plain.modifiers ∨ handler ∉ rendering ∧ name = withoutHtml
  action : altered.action = action

namespace Configures

variable {handler : Handler} {attr : ActionAttribute} {resolver : Resolver}
  (configures : handler.Configures attr resolver) (binding : Binding)
include configures

theorem toggled_events (toggles : handler = .toggleDisabled) :
    (resolver.resolve binding).events = binding.events.flatMap toggledEvents := by
  have states := configures.implicitStates
  rw [if_pos toggles] at states
  have clauses : resolver.clauseEvents = toggledEvents := by
    funext clause
    cases state : clause.state <;> simp [Resolver.clauseEvents, toggledEvents, state, states]
  rw [Resolver.resolve, clauses]

theorem given_template (inserts : handler ∈ inserting) {param : String}
    (member : param ∈ attr.params) (given : Text.trim param ≠ "") :
    resolver.template = some (Text.trim param) := by
  have template := configures.template
  rw [if_pos inserts] at template
  have inGiven : Text.trim param ∈ attr.givenParams :=
    List.mem_filter.mpr ⟨List.mem_map_of_mem member, by simpa using given⟩
  rw [template] at inGiven
  exact Option.mem_toList.mp inGiven

theorem no_template
    (bare : ¬ (handler ∈ inserting ∧ ∃ param ∈ attr.params, Text.trim param ≠ "")) :
    resolver.template = none := by
  have template := configures.template
  by_cases inserts : handler ∈ inserting
  · rw [if_pos inserts] at template
    have noParams : attr.givenParams = [] := by
      refine List.filter_eq_nil_iff.mpr fun trimmed member given => bare ⟨inserts, ?_⟩
      obtain ⟨param, inParams, rfl⟩ := List.mem_map.mp member
      exact ⟨param, inParams, by simpa using given⟩
    rw [noParams] at template
    exact Option.toList_eq_nil_iff.mp template.symm
  · rwa [if_neg inserts] at template

theorem mem_modifiers {name : String} : name ∈ (resolver.resolve binding).modifiers ↔
    name ∈ binding.plain.modifiers ∨ handler ∉ rendering ∧ name = withoutHtml := by
  have modifiers := configures.modifiers
  have nothing : name ∉ (∅ : OrderedSet String) := nofun
  rw [Binding.plain, Resolver.resolve, Resolver.resolve, OrderedSet.mem_insertAll,
    OrderedSet.mem_insertAll, modifiers]
  by_cases renders : handler ∈ rendering
  · simp [renders]
  · simp [renders, OrderedSet.mem_ofList, nothing]

/-- Whatever the binding, the resolver that a handler sets up changes it as the
handler does. -/
theorem alters {action : String} (supplied : resolver.action = some action) :
    handler.Alters attr action binding (resolver.resolve binding) where
  events other := by
    have states := configures.implicitStates
    rw [if_neg other] at states
    rw [Resolver.events_resolve states, Binding.plain, Resolver.events_resolve rfl]
  toggled toggles := ⟨Resolver.events_resolve rfl binding, configures.toggled_events binding toggles⟩
  template bare := by rw [Resolver.resolve, configures.no_template bare]; rfl
  inserted inserts param member given := by
    rw [Resolver.resolve, configures.given_template inserts member given]
    rfl
  modifiers name := configures.mem_modifiers binding
  action := by rw [Resolver.resolve, supplied]; rfl

end Configures

section Translate

variable (handler : Handler) {attr : ActionAttribute} (actions : ActionMap)
  {expressions : List Expression} (parsed : parse attr.value = .ok expressions)
include parsed

theorem translate_of_explicit (explicit : ∃ binding ∈ expressions.flatten, binding.action.isSome = true) :
    handler.translate attr actions = .error (.explicitAction attr.key) := by
  rw [translate, parsed, mapError_ok, ok_bind, if_pos (List.any_eq_true.mpr explicit)]
  rfl

theorem translate_of_parse (implicit : ∀ binding ∈ expressions.flatten, binding.action = none) :
    handler.translate attr actions = (fun resolver => resolver.compile expressions) <$>
      handler.resolver attr expressions.flatten actions := by
  have noAction : ¬ expressions.flatten.any (fun binding => binding.action.isSome) = true := by
    intro explicit
    obtain ⟨binding, member, named⟩ := List.any_eq_true.mp explicit
    rw [implicit binding member] at named
    cases named
  rw [translate, parsed, mapError_ok, ok_bind, if_neg noAction]
  rfl

end Translate

theorem implicit_of_translate {handler : Handler} {attr : ActionAttribute} {actions : ActionMap}
    {lines : List Attribute} {expressions : List Expression}
    (parsed : parse attr.value = .ok expressions)
    (translated : handler.translate attr actions = .ok lines) :
    ∀ binding ∈ expressions.flatten, binding.action = none := by
  intro binding member
  cases named : binding.action with
  | none => rfl
  | some ref =>
      have explicit := translate_of_explicit handler actions parsed
        ⟨binding, member, by rw [named]; rfl⟩
      rw [translated] at explicit
      cases explicit

/-- A handler compiles the bindings of the value one by one, in their order, to
what they compile to by themselves, with its own changes. All of them have the
same action. A refreshing handler changes nothing. -/
theorem translate_alters {handler : Handler} {attr : ActionAttribute} {actions : ActionMap}
    {lines : List Attribute} (translated : handler.translate attr actions = .ok lines) :
    ∃ (expressions : List Expression) (action : String) (altered : Binding → ResolvedBinding),
      parse attr.value = .ok expressions ∧
      compileExpression attr.value ∅ =
        .ok (expressions.flatten.map fun binding => binding.plain.toAttribute) ∧
      lines = expressions.flatten.map (fun binding => (altered binding).toAttribute) ∧
      (∀ binding ∈ expressions.flatten, handler.Alters attr action binding (altered binding)) ∧
      (handler = .refresh → compileExpression attr.value ∅ = .ok lines) := by
  obtain ⟨expressions, resolver, parsed, resolved, rfl⟩ := exists_resolver_of_translate translated
  have configures := configures_of_resolver resolved
  obtain ⟨action, supplied⟩ := Option.isSome_iff_exists.mp configures.action
  have plain := compileExpression_plain parsed
  refine ⟨expressions, action, resolver.resolve, parsed, plain, rfl,
    fun binding _ => configures.alters binding supplied, ?_⟩
  rintro rfl
  obtain ⟨_, _, resolved⟩ := bind_eq_ok_iff.mp resolved
  cases resolved
  have implicit := implicit_of_translate parsed translated
  have unchanged : ∀ binding ∈ expressions.flatten,
      Resolver.resolve { action := some defaultAction } binding = binding.plain :=
    fun binding member => ResolvedBinding.resolve_defaultAction (implicit binding member) ∅
  rw [plain, Resolver.compile]
  exact congrArg Except.ok (List.map_congr_left fun binding member => by rw [unchanged binding member])

theorem translate_alters_toggled :
    let attr : ActionAttribute :=
      ⟨"x-fir-toggle-disabled", "toggle-disabled", [], "save.nohtml, load:error->form; sent"⟩
    let lines : List Attribute :=
      [⟨"@fir:[save:pending,save:done,load:error]::form.nohtml", "$fir.toggleDisabled()"⟩,
        ⟨"@fir:[sent:pending,sent:done].nohtml", "$fir.toggleDisabled()"⟩]
    Handler.toggleDisabled.translate attr ∅ = .ok lines ∧
      ∃ (expressions : List Expression) (action : String) (altered : Binding → ResolvedBinding),
        parse attr.value = .ok expressions ∧
        lines = expressions.flatten.map (fun binding => (altered binding).toAttribute) ∧
        ∀ binding ∈ expressions.flatten,
          Handler.toggleDisabled.Alters attr action binding (altered binding) := by
  intro attr lines
  have translated : Handler.toggleDisabled.translate attr ∅ = .ok lines := by decide +kernel
  obtain ⟨expressions, action, altered, parsed, _, emitted, alters, _⟩ := translate_alters translated
  exact ⟨translated, expressions, action, altered, parsed, emitted, alters⟩

end Handler

end EventBindings
