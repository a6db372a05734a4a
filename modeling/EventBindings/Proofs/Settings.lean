import EventBindings.Binding.Resolver

namespace EventBindings.Resolver

/-!
What the settings of a resolver come to. Modifiers add up, and of everything else that is
set in a sequence of calls only the last counts. So calls that set different things can
change places.
-/

attribute [ext] Resolver

/-- The parts of a resolver that can be set. -/
inductive Setter where
  | modifiers
  | action
  | template
  | implicitStates
  deriving DecidableEq, Repr

/-- A call that sets a part of a resolver. -/
inductive Setting where
  | modifiers (names : List String)
  | action (text : String)
  | template (name : Option String)
  | implicitStates (states : List EventState)
  deriving DecidableEq, Repr

namespace Setting

def setter : Setting → Setter
  | modifiers _ => .modifiers
  | action _ => .action
  | template _ => .template
  | implicitStates _ => .implicitStates

/-- The modifiers that the call adds. -/
def added : Setting → List String
  | modifiers names => names
  | _ => []

def action? : Setting → Option String
  | action text => some text
  | _ => none

def template? : Setting → Option String
  | template name => name
  | _ => none

def states? : Setting → Option (List EventState)
  | implicitStates states => some states
  | _ => none

end Setting

def set (resolver : Resolver) : Setting → Resolver
  | .modifiers names => resolver.withModifiers names
  | .action text => resolver.withAction text
  | .template name => resolver.withTemplate name
  | .implicitStates states => resolver.withImplicitStates states

/-- The resolver after a sequence of calls. -/
def configure (resolver : Resolver) (settings : List Setting) : Resolver :=
  settings.foldl set resolver

/-- A resolver before any call, with a map or without one. -/
def starting (actions : Option ActionMap) : Resolver :=
  { actions := actions.getD ∅ }

section Sequences

variable (settings : List Setting)

def addedModifiers : List String :=
  settings.flatMap Setting.added

def lastAction? : Option String :=
  (settings.filterMap Setting.action?).getLast?

def lastTemplate? : Option String :=
  (settings.filterMap Setting.template?).getLast?

def lastStates? : Option (List EventState) :=
  (settings.filterMap Setting.states?).getLast?

end Sequences

/-- The events of the clauses in their order. A stated event stands for itself, and an
event without an outcome for one event with each of the states. -/
inductive Expands (states : List EventState) : List EventClause → List Event → Prop
  | nil : Expands states [] []
  | stated {clause : EventClause} {state : EventState} {clauses : List EventClause}
      {events : List Event} (given : clause.state = some state)
      (others : Expands states clauses events) :
      Expands states (clause :: clauses) (⟨clause.name, state⟩ :: events)
  | unstated {clause : EventClause} {clauses : List EventClause} {events : List Event}
      (missing : clause.state = none) (others : Expands states clauses events) :
      Expands states (clause :: clauses) (states.map (⟨clause.name, ·⟩) ++ events)

/-- The text of the action that a binding names, if it names one. -/
inductive StandsFor (actions : Option ActionMap) : Option ActionRef → String → Prop
  | unnamed : StandsFor actions none "$fir.replace()"
  | call (name : String) : StandsFor actions (some (.call name)) ("$fir." ++ name ++ "()")
  | mapped {map : ActionMap} {name text : String} (given : actions = some map)
      (found : map.get? name = some text) : StandsFor actions (some (.named name)) text
  | unmapped {name : String} (missing : ∀ map, actions = some map → map.get? name = none) :
      StandsFor actions (some (.named name)) name

/-- What a binding is resolved to after a sequence of calls. -/
structure Settled (actions : Option ActionMap) (settings : List Setting) (binding : Binding)
    (resolved : ResolvedBinding) : Prop where
  events : Expands ((lastStates? settings).getD [.ok]) binding.events resolved.events
  template : resolved.template = (lastTemplate? settings).or binding.template
  action : ∀ text, lastAction? settings = some text → resolved.action = text
  ownAction : lastAction? settings = none → StandsFor actions binding.action resolved.action
  modifiers : ∀ name, name ∈ resolved.modifiers ↔
    name ∈ addedModifiers settings ∨ ∃ clause ∈ binding.events, name ∈ clause.modifiers

section Calls

theorem action_set (resolver : Resolver) (setting : Setting) :
    (resolver.set setting).action = setting.action?.or resolver.action := by
  cases setting <;> rfl

theorem template_set (resolver : Resolver) (setting : Setting) :
    (resolver.set setting).template = setting.template?.or resolver.template := by
  cases setting with
  | template name => exact Option.orElse_eq_or
  | _ => rfl

theorem implicitStates_set (resolver : Resolver) (setting : Setting) :
    some (resolver.set setting).implicitStates =
      setting.states?.or (some resolver.implicitStates) := by
  cases setting <;> rfl

theorem actions_set (resolver : Resolver) (setting : Setting) :
    (resolver.set setting).actions = resolver.actions := by
  cases setting <;> rfl

theorem mem_modifiers_set {resolver : Resolver} {setting : Setting} {name : String} :
    name ∈ (resolver.set setting).modifiers ↔ name ∈ setting.added ∨ name ∈ resolver.modifiers := by
  cases setting with
  | modifiers names => exact OrderedSet.mem_insertAll
  | _ => simp [set, Setting.added, withAction, withTemplate, withImplicitStates]

/-- Calls that set different things can change places. -/
theorem set_set_comm {first second : Setting} (other : first.setter ≠ second.setter)
    (resolver : Resolver) : (resolver.set first).set second = (resolver.set second).set first := by
  cases first <;> cases second <;> first | rfl | exact absurd rfl other

end Calls

section Runs

variable (resolver : Resolver) (settings : List Setting)

/-- A part that each call replaces or leaves alone is what the last call has made it that
replaces it. -/
theorem configure_last {β : Type} (part : Resolver → Option β) {see : Setting → Option β}
    (step : ∀ resolver setting, part (resolver.set setting) = (see setting).or (part resolver)) :
    part (resolver.configure settings) =
      (settings.filterMap see).getLast?.or (part resolver) := by
  induction settings generalizing resolver with
  | nil => rfl
  | cons setting settings ih =>
      have behind : part (resolver.configure (setting :: settings)) =
          (settings.filterMap see).getLast?.or ((see setting).or (part resolver)) := by
        rw [← step]
        exact ih (resolver.set setting)
      rw [behind, List.filterMap_cons]
      cases see setting with
      | none => rw [Option.none_or]
      | some value =>
          rw [List.getLast?_cons]
          cases (settings.filterMap see).getLast? <;> rfl

theorem actions_configure : (resolver.configure settings).actions = resolver.actions := by
  induction settings generalizing resolver with
  | nil => rfl
  | cons setting settings ih => exact (ih (resolver.set setting)).trans (actions_set resolver setting)

theorem mem_modifiers_configure {name : String} :
    name ∈ (resolver.configure settings).modifiers ↔
      name ∈ addedModifiers settings ∨ name ∈ resolver.modifiers := by
  induction settings generalizing resolver with
  | nil => simp [configure, addedModifiers]
  | cons setting settings ih =>
      have behind : name ∈ (resolver.configure (setting :: settings)).modifiers ↔
          name ∈ addedModifiers settings ∨ name ∈ setting.added ∨ name ∈ resolver.modifiers :=
        (ih (resolver.set setting)).trans (or_congr_right mem_modifiers_set)
      rw [behind, or_left_comm, ← or_assoc, addedModifiers, addedModifiers, List.flatMap_cons,
        List.mem_append]

/-- All that is left of a sequence of calls. -/
theorem configure_starting (actions : Option ActionMap) :
    (starting actions).configure settings =
      { actions := actions.getD ∅, modifiers := .ofList (addedModifiers settings),
        action := lastAction? settings, template := lastTemplate? settings,
        implicitStates := (lastStates? settings).getD [.ok] } := by
  apply Resolver.ext
  case actions => exact actions_configure (starting actions) settings
  case modifiers =>
    apply OrderedSet.eq_of_mem_iff
    intro name
    rw [mem_modifiers_configure, OrderedSet.mem_ofList]
    exact or_iff_left List.not_mem_nil
  case action =>
    rw [configure_last (starting actions) settings Resolver.action action_set]
    exact Option.or_none
  case template =>
    rw [configure_last (starting actions) settings Resolver.template template_set]
    exact Option.or_none
  case implicitStates =>
    have states : some ((starting actions).configure settings).implicitStates =
        (lastStates? settings).or (some [.ok]) :=
      configure_last (starting actions) settings (some ·.implicitStates) implicitStates_set
    rwa [Option.or_some, Option.some.injEq] at states

end Runs

theorem expands_flatMap {resolver : Resolver} {states : List EventState}
    (given : resolver.implicitStates = states) (clauses : List EventClause) :
    Expands states clauses (clauses.flatMap resolver.clauseEvents) := by
  subst given
  induction clauses with
  | nil => exact .nil
  | cons clause clauses ih =>
      rw [List.flatMap_cons, clauseEvents]
      split
      next given => exact .stated given ih
      next missing => exact .unstated missing ih

theorem standsFor_actionText {resolver : Resolver} {actions : Option ActionMap}
    (map : resolver.actions = actions.getD ∅) (action : Option ActionRef) :
    StandsFor actions action (resolver.actionText action) := by
  cases action with
  | none => exact .unnamed
  | some ref =>
      cases ref with
      | call name => exact .call name
      | named name =>
          rw [actionText, map]
          cases actions with
          | none => exact .unmapped nofun
          | some entries =>
              rw [Option.getD_some]
              cases found : entries.get? name with
              | some text => exact .mapped rfl found
              | none =>
                  apply StandsFor.unmapped
                  intro other same
                  cases same
                  exact found

/-- Whatever calls have been made of a resolver, it resolves a binding by all modifiers
that it has been given and by the last action, the last template and the last states, and
by nothing else of the calls. Two calls of different setters can change places wherever
they stand. -/
theorem resolve_configured (start : Option ActionMap) :
    (∀ settings binding,
      Settled start settings binding (((starting start).configure settings).resolve binding)) ∧
    (∀ settings others,
      (∀ name, name ∈ addedModifiers settings ↔ name ∈ addedModifiers others) →
      lastAction? settings = lastAction? others →
      lastTemplate? settings = lastTemplate? others →
      lastStates? settings = lastStates? others →
      ∀ binding, ((starting start).configure settings).resolve binding =
        ((starting start).configure others).resolve binding) ∧
    ∀ resolver before first second behind, first.setter ≠ second.setter →
      configure resolver (before ++ first :: second :: behind) =
        configure resolver (before ++ second :: first :: behind) := by
  refine ⟨fun settings binding => ?settled, fun settings others => ?depends, ?commutes⟩
  case settled =>
    rw [configure_starting]
    constructor
    case events => exact expands_flatMap (by rfl) binding.events
    case template => exact Option.orElse_eq_or
    case action =>
      intro text last
      simp [resolve, last]
    case ownAction =>
      intro unset
      simp only [resolve, unset, Option.getD_none]
      exact standsFor_actionText rfl binding.action
    case modifiers =>
      intro name
      rw [resolve, OrderedSet.mem_insertAll, OrderedSet.mem_ofList, List.mem_flatMap, or_comm]
  case depends =>
    intro modifiers action template states binding
    have sameModifiers : OrderedSet.ofList (addedModifiers settings) =
        OrderedSet.ofList (addedModifiers others) := by
      apply OrderedSet.eq_of_mem_iff
      intro name
      rw [OrderedSet.mem_ofList, OrderedSet.mem_ofList, modifiers]
    rw [configure_starting, configure_starting, sameModifiers, action, template, states]
  case commutes =>
    intro resolver before first second behind other
    simp only [configure, List.foldl_append, List.foldl_cons, set_set_comm other]

/-- A call without a template keeps the one that was set, and an action that is set again
leaves nothing of the first. -/
theorem resolve_configured_chained :
    (((starting none).configure [.template (some "row"), .template none]).resolve
      ⟨[⟨"click", none, []⟩], some "card", none⟩).template = some "row" ∧
    (lastAction? [.action "save", .modifiers ["once"], .action "load"] =
        lastAction? [.modifiers ["once", "once"], .action "load"] ∧
      ((starting none).configure [.action "save", .modifiers ["once"], .action "load"]).resolve
          ⟨[⟨"click", none, []⟩], none, none⟩ =
        ((starting none).configure [.modifiers ["once", "once"], .action "load"]).resolve
          ⟨[⟨"click", none, []⟩], none, none⟩) ∧
    Setter.action ≠ Setter.modifiers ∧
      configure {} [.action "save", .modifiers ["once"], .action "load"] =
        configure {} [.modifiers ["once"], .action "save", .action "load"] := by
  obtain ⟨settled, depends, commutes⟩ := resolve_configured none
  have other : Setter.action ≠ Setter.modifiers := by decide
  have sameModifiers : ∀ name,
      name ∈ addedModifiers [.action "save", .modifiers ["once"], .action "load"] ↔
        name ∈ addedModifiers [.modifiers ["once", "once"], .action "load"] := by
    simp [addedModifiers, Setting.added]
  exact ⟨(settled _ _).template, ⟨rfl, depends _ _ sameModifiers rfl rfl rfl _⟩, other,
    commutes {} [] _ _ [.action "load"] other⟩

end EventBindings.Resolver
