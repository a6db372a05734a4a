import EventBindings.Proofs.Element.MapLookups
import EventBindings.Proofs.Element.SingleAttribute
import EventBindings.Proofs.Handler.Alterations

namespace EventBindings

/-!
When a handler fails, and how. The value is read first, then it must not name an
action, then the parameters are counted, and at last an action is looked up.
Only one handler fails for what the map has.
-/

namespace ActionAttribute

/-- How many parameters there are besides blank ones. -/
def paramCount (attr : ActionAttribute) : Nat :=
  attr.params.countP fun param => Text.trim param != ""

theorem length_givenParams (attr : ActionAttribute) : attr.givenParams.length = attr.paramCount := by
  rw [givenParams, ← List.countP_eq_length_filter, List.countP_map]
  rfl

def NamesScript (attr : ActionAttribute) : Prop :=
  ∃ script, script ≠ "" ∧ attr.actionName = "action-" ++ script

/-- The value is read as these bindings, and none of them names an action. -/
def HasBindings (attr : ActionAttribute) (bindings : List Binding) : Prop :=
  ∃ expressions, EventBindings.parse attr.value = .ok expressions ∧
    expressions.flatten = bindings ∧ ∀ binding ∈ bindings, binding.action = none

end ActionAttribute

/-- Why a name stands for no action. -/
def LookupFault.Arises (actions : ActionMap) (name : String) : LookupFault → Prop
  | .missing => actions.get? name = none
  | .blank => ∃ action, actions.get? name = some action ∧ Text.trim action = ""

namespace Handler

/-- The number of parameters is one that the handler takes. Where an insertion
has none, all bindings have to name their templates. -/
def Admits (attr : ActionAttribute) (bindings : List Binding) : Handler → Prop
  | .refresh | .remove | .removeParent | .reset | .toggleDisabled => attr.paramCount = 0
  | .toggleClass | .dispatch => 1 ≤ attr.paramCount
  | .run => attr.paramCount = 1
  | .redirect => attr.paramCount ≤ 1
  | .append | .prepend => attr.paramCount ≤ 1 ∧
      (attr.paramCount = 0 → ∀ binding ∈ bindings, binding.template.isSome = true)
  | .script => (attr.NamesScript → attr.paramCount = 0) ∧ (¬ attr.NamesScript → attr.paramCount = 1)

/-- The handler runs an action by name, and there is none under the name. -/
def Misses (handler : Handler) (attr : ActionAttribute) (actions : ActionMap) (name : String)
    (fault : LookupFault) : Prop :=
  handler = .run ∧ attr.givenParams = [name] ∧ fault.Arises actions name

/-- The check passes exactly under the condition, and it fails for the parameters
of the handler. -/
structure Checks {α : Type} (handler : Handler) (condition : Prop)
    (check : Except ActionError α) : Prop where
  passes : condition → ∃ a, check = .ok a
  refuses : ¬ condition → ∃ fault, check = .error (.params handler fault)

namespace Checks

variable {α β : Type} {handler : Handler} {condition : Prop}

theorem bind {check : Except ActionError α} {next : α → Except ActionError β}
    (checks : handler.Checks condition check) (goesOn : ∀ a, ∃ b, next a = .ok b) :
    handler.Checks condition (check >>= next) where
  passes holds := by
    obtain ⟨a, passed⟩ := checks.passes holds
    obtain ⟨b, reached⟩ := goesOn a
    exact ⟨b, by rw [passed, ok_bind, reached]⟩
  refuses fails := by
    obtain ⟨fault, refused⟩ := checks.refuses fails
    exact ⟨fault, by rw [refused, error_bind]⟩

theorem congr {check : Except ActionError α} {other : Prop} (checks : handler.Checks condition check)
    (same : condition ↔ other) : handler.Checks other check where
  passes holds := checks.passes (same.mpr holds)
  refuses fails := checks.refuses fun holds => fails (same.mp holds)

end Checks

section Parameters

variable (handler : Handler) (params : List String)

theorem noParam_checks : handler.Checks (params.length = 0) (handler.noParam params) := by
  match params with
  | [] => exact ⟨fun _ => ⟨_, rfl⟩, fun fails => absurd rfl fails⟩
  | _ :: _ => exact ⟨nofun, fun _ => ⟨_, rfl⟩⟩

theorem oneParam_checks : handler.Checks (params.length = 1) (handler.oneParam params) := by
  match params with
  | [] => exact ⟨nofun, fun _ => ⟨_, rfl⟩⟩
  | [_] => exact ⟨fun _ => ⟨_, rfl⟩, fun fails => absurd rfl fails⟩
  | _ :: _ :: _ => exact ⟨nofun, fun _ => ⟨_, rfl⟩⟩

theorem optionalParam_checks :
    handler.Checks (params.length ≤ 1) (handler.optionalParam params) := by
  match params with
  | [] => exact ⟨fun _ => ⟨_, rfl⟩, fun fails => absurd (Nat.zero_le 1) fails⟩
  | [_] => exact ⟨fun _ => ⟨_, rfl⟩, fun fails => absurd (Nat.le_refl 1) fails⟩
  | _ :: _ :: _ => exact ⟨fun few => absurd few (by simp), fun _ => ⟨_, rfl⟩⟩

theorem someParams_checks : handler.Checks (1 ≤ params.length) (handler.someParams params) := by
  match params with
  | [] => exact ⟨nofun, fun _ => ⟨_, rfl⟩⟩
  | _ :: _ => exact ⟨fun _ => ⟨_, rfl⟩, fun fails => absurd (by simp) fails⟩

end Parameters

section Resolver

variable (handler : Handler) (attr : ActionAttribute) (bindings : List Binding)
  (actions : ActionMap)

theorem insertionResolver_checks (action : String) :
    handler.Checks (attr.paramCount ≤ 1 ∧
        (attr.paramCount = 0 → ∀ binding ∈ bindings, binding.template.isSome = true))
      (handler.insertionResolver action bindings attr.givenParams) := by
  rw [← attr.length_givenParams]
  match attr.givenParams with
  | [] =>
      have resolved : handler.insertionResolver action bindings [] =
          if bindings.any (fun binding => binding.template.isNone) = true then
            .error (.params handler .requiresTemplate)
          else .ok { action := some action, template := none } := rfl
      have bare_iff : bindings.any (fun binding => binding.template.isNone) = true ↔
          ¬ ∀ binding ∈ bindings, binding.template.isSome = true := by simp
      rw [resolved]
      by_cases templates : ∀ binding ∈ bindings, binding.template.isSome = true
      · rw [if_neg fun bare => bare_iff.mp bare templates]
        exact ⟨fun _ => ⟨_, rfl⟩, fun refused => absurd ⟨Nat.zero_le 1, fun _ => templates⟩ refused⟩
      · rw [if_pos (bare_iff.mpr templates)]
        exact ⟨fun admits => absurd (admits.2 rfl) templates, fun _ => ⟨_, rfl⟩⟩
  | [_] => exact ⟨fun _ => ⟨_, rfl⟩, fun refused => absurd ⟨Nat.le_refl 1, nofun⟩ refused⟩
  | _ :: _ :: _ => exact ⟨fun admits => absurd admits.1 (by simp), fun _ => ⟨_, rfl⟩⟩

theorem scriptOf_checks : Handler.script.Checks (Handler.script.Admits attr bindings)
    (scriptOf attr) := by
  have count := attr.length_givenParams
  unfold scriptOf
  split
  · rename_i script named
    have names : attr.NamesScript := ⟨script, scriptName?_eq_some_iff.mp named⟩
    refine ((noParam_checks .script attr.givenParams).bind fun _ => ⟨_, rfl⟩).congr ?_
    simp [Admits, names, count]
  · rename_i unnamed
    have notNames : ¬ attr.NamesScript := by
      rintro ⟨script, named⟩
      rw [scriptName?_eq_some_iff.mpr named] at unnamed
      cases unnamed
    refine (oneParam_checks .script attr.givenParams).congr ?_
    simp [Admits, notNames, count]

/-- All handlers but one are set up exactly if they take the parameters. -/
theorem resolver_checks (other : handler ≠ .run) :
    handler.Checks (handler.Admits attr bindings) (handler.resolver attr bindings actions) := by
  have count := attr.length_givenParams
  cases handler with
  | refresh | remove | removeParent | reset | toggleDisabled =>
      rw [Admits, ← count]
      exact (noParam_checks _ attr.givenParams).bind fun _ => ⟨_, rfl⟩
  | toggleClass | dispatch =>
      rw [Admits, ← count]
      exact (someParams_checks _ attr.givenParams).bind fun _ => ⟨_, rfl⟩
  | redirect =>
      rw [Admits, ← count]
      exact (optionalParam_checks _ attr.givenParams).bind fun _ => ⟨_, rfl⟩
  | script => exact (scriptOf_checks attr bindings).bind fun _ => ⟨_, rfl⟩
  | append | prepend => exact insertionResolver_checks _ attr bindings _
  | run => exact absurd rfl other

end Resolver

section Run

variable {attr : ActionAttribute} {bindings : List Binding} {actions : ActionMap}

theorem mappedAction_eq_error_iff {name : String} {error : ActionError} :
    mappedAction actions name = .error error ↔
      ∃ fault : LookupFault, fault.Arises actions name ∧ error = .lookup name fault := by
  rw [mappedAction]
  constructor
  · intro failed
    split at failed
    · rename_i missing
      cases failed
      exact ⟨.missing, missing, rfl⟩
    · rename_i action found
      split at failed <;> cases failed
      rename_i blank
      exact ⟨.blank, ⟨action, found, Text.isAllBlank_iff.mp blank⟩, rfl⟩
  · rintro ⟨fault, arises, rfl⟩
    cases fault with
    | missing =>
        have missing : actions.get? name = none := arises
        rw [missing]
    | blank =>
        obtain ⟨action, found, blank⟩ := arises
        simp only [found, if_pos (Text.isAllBlank_iff.mpr blank)]

theorem run_resolver {name : String} (given : attr.givenParams = [name]) :
    Handler.run.resolver attr bindings actions = plainResolver <$> mappedAction actions name := by
  simp only [resolver, given, oneParam, ok_bind]
  rfl

end Run

section Resolver

variable {handler : Handler} {attr : ActionAttribute} {bindings : List Binding}
  {actions : ActionMap}

theorem resolver_of_refused (refused : ¬ handler.Admits attr bindings) :
    ∃ fault, handler.resolver attr bindings actions = .error (.params handler fault) := by
  by_cases runs : handler = .run
  · subst runs
    have notOne : ¬ attr.givenParams.length = 1 := by rwa [attr.length_givenParams]
    obtain ⟨fault, failed⟩ := (oneParam_checks .run attr.givenParams).refuses notOne
    exact ⟨fault, by simp only [resolver, failed, error_bind]⟩
  · exact (resolver_checks handler attr bindings actions runs).refuses refused

theorem resolver_of_misses {name : String} {fault : LookupFault}
    (misses : handler.Misses attr actions name fault) :
    handler.resolver attr bindings actions = .error (.lookup name fault) := by
  obtain ⟨rfl, given, arises⟩ := misses
  rw [run_resolver given, mappedAction_eq_error_iff.mpr ⟨fault, arises, rfl⟩, Except.map_error]

theorem resolver_of_admitted (admits : handler.Admits attr bindings)
    (found : ∀ name fault, ¬ handler.Misses attr actions name fault) :
    ∃ resolver, handler.resolver attr bindings actions = .ok resolver := by
  by_cases runs : handler = .run
  · subst runs
    have one : attr.givenParams.length = 1 := by rwa [attr.length_givenParams]
    obtain ⟨name, given⟩ := List.length_eq_one_iff.mp one
    rw [run_resolver given]
    cases mapped : mappedAction actions name with
    | ok action => exact ⟨_, rfl⟩
    | error error =>
        obtain ⟨fault, arises, _⟩ := mappedAction_eq_error_iff.mp mapped
        exact absurd ⟨rfl, given, arises⟩ (found name fault)
  · exact (resolver_checks handler attr bindings actions runs).passes admits

end Resolver

section Translate

variable {handler : Handler} {attr : ActionAttribute} {bindings : List Binding}
  {actions : ActionMap}

section Read

variable (read : attr.HasBindings bindings)
include read

theorem translate_of_refused (refused : ¬ handler.Admits attr bindings) :
    ∃ fault, handler.translate attr actions = .error (.params handler fault) := by
  obtain ⟨expressions, parsed, rfl, implicit⟩ := read
  obtain ⟨fault, failed⟩ : ∃ fault, handler.resolver attr expressions.flatten actions =
    .error (.params handler fault) := resolver_of_refused refused
  exact ⟨fault, by rw [translate_of_parse handler actions parsed implicit, failed, Except.map_error]⟩

theorem translate_of_misses {name : String} {fault : LookupFault}
    (misses : handler.Misses attr actions name fault) :
    handler.translate attr actions = .error (.lookup name fault) := by
  obtain ⟨expressions, parsed, rfl, implicit⟩ := read
  rw [translate_of_parse handler actions parsed implicit, resolver_of_misses misses, Except.map_error]

theorem translate_of_admitted (admits : handler.Admits attr bindings)
    (found : ∀ name fault, ¬ handler.Misses attr actions name fault) :
    ∃ lines, handler.translate attr actions = .ok lines := by
  obtain ⟨expressions, parsed, rfl, implicit⟩ := read
  obtain ⟨resolver, resolved⟩ := resolver_of_admitted admits found
  exact ⟨_, by rw [translate_of_parse handler actions parsed implicit, resolved, Except.map_ok]⟩

end Read

end Translate

/-- What may come of translating an attribute, and when. -/
inductive Outcome (handler : Handler) (attr : ActionAttribute) (actions : ActionMap) :
    Except ActionError (List Attribute) → Prop
  | unread {fault : GrammarError} (unread : parse attr.value = .error fault) :
      Outcome handler attr actions (.error (.grammar fault))
  | explicitAction {expressions : List Expression} (parsed : parse attr.value = .ok expressions)
      (explicit : ∃ binding ∈ expressions.flatten, binding.action.isSome = true) :
      Outcome handler attr actions (.error (.explicitAction attr.key))
  | params {bindings : List Binding} {fault : ParamFault} (read : attr.HasBindings bindings)
      (refused : ¬ handler.Admits attr bindings) :
      Outcome handler attr actions (.error (.params handler fault))
  | lookup {bindings : List Binding} {name : String} {fault : LookupFault}
      (read : attr.HasBindings bindings) (admits : handler.Admits attr bindings)
      (misses : handler.Misses attr actions name fault) :
      Outcome handler attr actions (.error (.lookup name fault))
  | translated {bindings : List Binding} {lines : List Attribute}
      (read : attr.HasBindings bindings) (admits : handler.Admits attr bindings)
      (found : ∀ name fault, ¬ handler.Misses attr actions name fault) :
      Outcome handler attr actions (.ok lines)

theorem outcome_translate (handler : Handler) (attr : ActionAttribute) (actions : ActionMap) :
    handler.Outcome attr actions (handler.translate attr actions) := by
  cases parsed : parse attr.value with
  | error fault =>
      rw [translate_of_unread parsed]
      exact .unread parsed
  | ok expressions =>
      by_cases explicit : ∃ binding ∈ expressions.flatten, binding.action.isSome = true
      · rw [translate_of_explicit handler actions parsed explicit]
        exact .explicitAction parsed explicit
      · have read : attr.HasBindings expressions.flatten :=
          ⟨expressions, parsed, rfl, by simpa using explicit⟩
        by_cases admits : handler.Admits attr expressions.flatten
        · by_cases misses : ∃ name fault, handler.Misses attr actions name fault
          · obtain ⟨name, fault, misses⟩ := misses
            rw [translate_of_misses read misses]
            exact .lookup read admits misses
          · have found : ∀ name fault, ¬ handler.Misses attr actions name fault :=
              fun name fault missed => misses ⟨name, fault, missed⟩
            obtain ⟨lines, translated⟩ := translate_of_admitted read admits found
            rw [translated]
            exact .translated read admits found
        · obtain ⟨fault, failed⟩ : ∃ fault, handler.translate attr actions =
            .error (.params handler fault) := translate_of_refused read admits
          rw [failed]
          exact .params read admits

/-- Exactly when a handler fails, and how: for the grammar of the value, for an
action that the value names, for the number of parameters, for a name without an
action, in this order. Otherwise it succeeds, and a parameter is only taken where
it is the only one. -/
theorem translate_outcomes (handler : Handler) (attr : ActionAttribute) (actions : ActionMap) :
    (∀ fault, handler.translate attr actions = .error (.grammar fault) ↔
      parse attr.value = .error fault) ∧
    (∀ key, handler.translate attr actions = .error (.explicitAction key) ↔
      key = attr.key ∧ ∃ expressions, parse attr.value = .ok expressions ∧
        ∃ binding ∈ expressions.flatten, binding.action.isSome = true) ∧
    (∀ refusing, (∃ fault, handler.translate attr actions = .error (.params refusing fault)) ↔
      refusing = handler ∧ ∃ bindings, attr.HasBindings bindings ∧ ¬ handler.Admits attr bindings) ∧
    (∀ name fault, handler.translate attr actions = .error (.lookup name fault) ↔
      ∃ bindings, attr.HasBindings bindings ∧ handler.Admits attr bindings ∧
        handler.Misses attr actions name fault) ∧
    ((∃ lines, handler.translate attr actions = .ok lines) ↔
      ∃ bindings, attr.HasBindings bindings ∧ handler.Admits attr bindings ∧
        ∀ name fault, ¬ handler.Misses attr actions name fault) ∧
    (∀ first second events,
      handler.translate attr actions ≠ .error (.conflict first second events)) ∧
    ∀ name, handler.oneParam attr.givenParams = .ok name →
      attr.paramCount = 1 ∧ attr.givenParams[0]? = some name := by
  have outcome := outcome_translate handler attr actions
  refine ⟨fun fault => ⟨fun failed => ?_, translate_of_unread⟩,
    fun key => ⟨fun failed => ?_, ?_⟩, fun refusing => ⟨?_, ?_⟩,
    fun name fault => ⟨fun failed => ?_, ?_⟩, ⟨?_, ?_⟩, fun first second events failed => ?_,
    fun name accepted => ?_⟩
  · rw [failed] at outcome
    cases outcome with
    | unread unread => exact unread
  · rw [failed] at outcome
    cases outcome with
    | explicitAction parsed explicit => exact ⟨rfl, _, parsed, explicit⟩
  · rintro ⟨rfl, expressions, parsed, explicit⟩
    exact translate_of_explicit handler actions parsed explicit
  · rintro ⟨fault, failed⟩
    rw [failed] at outcome
    cases outcome with
    | params read refused => exact ⟨rfl, _, read, refused⟩
  · rintro ⟨rfl, bindings, read, refused⟩
    exact translate_of_refused read refused
  · rw [failed] at outcome
    cases outcome with
    | lookup read admits misses => exact ⟨_, read, admits, misses⟩
  · rintro ⟨bindings, read, _, misses⟩
    exact translate_of_misses read misses
  · rintro ⟨lines, translated⟩
    rw [translated] at outcome
    cases outcome with
    | translated read admits found => exact ⟨_, read, admits, found⟩
  · rintro ⟨bindings, read, admits, found⟩
    exact translate_of_admitted read admits found
  · rw [failed] at outcome
    cases outcome
  · have given := params_of_oneParam accepted
    rw [← attr.length_givenParams, given]
    exact ⟨rfl, rfl⟩

end Handler

end EventBindings
