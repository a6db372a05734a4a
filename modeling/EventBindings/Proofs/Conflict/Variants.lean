import EventBindings.Proofs.Conflict
import EventBindings.Proofs.KeyEvents

namespace EventBindings

/-!
What a conflict depends on. It depends on both handlers alike, so it is all the
same which of them is asked for the other one. And it depends on a value by the
events that the value declares, whatever else is written there.
-/

/-- Which of two handlers has to list the other one. -/
inductive ExclusionTest where
  | first
  | second
  | either
  | both
  deriving DecidableEq, Repr

def ExclusionTest.passes (test : ExclusionTest) (first second : Handler) : Bool :=
  match test with
  | .first => second ∈ first.exclusiveWith
  | .second => first ∈ second.exclusiveWith
  | .either => second ∈ first.exclusiveWith || first ∈ second.exclusiveWith
  | .both => second ∈ first.exclusiveWith && first ∈ second.exclusiveWith

theorem ExclusionTest.passes_iff {test : ExclusionTest} {first second : Handler} :
    test.passes first second = true ↔ second ∈ first.exclusiveWith := by
  have eachOther : second ∈ first.exclusiveWith ↔ first ∈ second.exclusiveWith :=
    Handler.exclusiveWith_comm
  cases test <;> simp [passes, eachOther]

/-- The text declares the event: it is read, and one of its clauses has the name
and the outcome, which is `ok` where none is written. -/
def Declares (text : String) (event : Event) : Prop :=
  ∃ expressions binding clause, parse text = .ok expressions ∧ binding ∈ expressions.flatten ∧
    clause ∈ binding.events ∧ clause.name = event.name ∧ clause.state.getD .ok = event.state

/-- Clauses that differ in modifiers, in whether an outcome `ok` is written, in
their order or in repetitions. -/
inductive Restyled : List EventClause → List EventClause → Prop
  | modifiers (clause : EventClause) (modifiers : List String) (rest : List EventClause) :
      Restyled (clause :: rest) ({ clause with modifiers } :: rest)
  | outcome (name : String) (modifiers : List String) (rest : List EventClause) :
      Restyled (⟨name, none, modifiers⟩ :: rest) (⟨name, some .ok, modifiers⟩ :: rest)
  | order {clauses others : List EventClause} (reordered : clauses.Perm others) :
      Restyled clauses others
  | repetition (clause : EventClause) (rest : List EventClause) :
      Restyled (clause :: rest) (clause :: clause :: rest)
  | symm {clauses others : List EventClause} (restyled : Restyled clauses others) :
      Restyled others clauses
  | trans {clauses others more : List EventClause} (first : Restyled clauses others)
      (second : Restyled others more) : Restyled clauses more

theorem Restyled.mem_iff {clauses others : List EventClause} (restyled : Restyled clauses others)
    (event : Event) :
    event ∈ clauses.map EventClause.event ↔ event ∈ others.map EventClause.event := by
  induction restyled with
  | modifiers clause modifiers rest => rfl
  | outcome name modifiers rest => rfl
  | order reordered => exact (reordered.map EventClause.event).mem_iff
  | repetition clause rest => simp
  | symm restyled ih => exact ih.symm
  | trans first second firstIH secondIH => exact firstIH.trans secondIH

section Declares

variable {text : String} {expressions : List Expression} (parsed : parse text = .ok expressions)
include parsed

theorem declares_iff {event : Event} : Declares text event ↔
    event ∈ (expressions.flatten.flatMap Binding.events).map EventClause.event := by
  rw [List.map_flatMap, List.mem_flatMap]
  constructor
  case mp =>
    intro given
    obtain ⟨others, binding, clause, otherParsed, inText, member, name, outcome⟩ := given
    rw [parsed, Except.ok.injEq] at otherParsed
    subst otherParsed
    refine ⟨binding, inText, List.mem_map.mpr ⟨clause, member, ?_⟩⟩
    rw [EventClause.event, name, outcome]
  case mpr =>
    intro given
    obtain ⟨binding, inText, inBinding⟩ := given
    obtain ⟨clause, member, rfl⟩ := List.mem_map.mp inBinding
    exact ⟨expressions, binding, clause, parsed, inText, member, rfl, rfl⟩

/-- Neither the style of the clauses nor their targets or brackets matter to what
is declared. -/
theorem declares_iff_of_restyled {other : String} {others : List Expression}
    (otherParsed : parse other = .ok others)
    (restyled : Restyled (expressions.flatten.flatMap Binding.events)
      (others.flatten.flatMap Binding.events)) (event : Event) :
    Declares text event ↔ Declares other event := by
  rw [declares_iff parsed, declares_iff otherParsed, restyled.mem_iff]

end Declares

namespace CollectedAction

theorem mem_events_iff {handler : Handler} {attr : ActionAttribute} {action : CollectedAction}
    (collected : collect handler attr = .ok action) {event : Event} :
    event ∈ action.events ↔ Declares attr.value event := by
  obtain ⟨events, declared, collected⟩ := bind_eq_ok_iff.mp collected
  cases collected
  obtain ⟨expressions, parsed, listed⟩ := bind_eq_ok_iff.mp declared
  cases listed
  rw [OrderedSet.mem_ofList, declares_iff parsed]

theorem handler_of_collect {handler : Handler} {attr : ActionAttribute} {action : CollectedAction}
    (collected : collect handler attr = .ok action) : action.handler = handler := by
  obtain ⟨_, _, collected⟩ := bind_eq_ok_iff.mp collected
  cases collected
  rfl

/-- Whether two actions conflict, by one of the tests for exclusion, and with or
without asking first whether a handler coexists with all others. -/
def conflictsBy (test : ExclusionTest) (asksCoexistence : Bool) (first second : CollectedAction) :
    Bool :=
  !(asksCoexistence && (first.handler.coexists || second.handler.coexists)) &&
    !first.events.isDisjoint second.events && test.passes first.handler second.handler

variable {first second : CollectedAction}

/-- A handler that another one lists does not coexist with all, so nothing is left
for that question to decide. -/
theorem conflictsBy_iff {test : ExclusionTest} {asksCoexistence : Bool} :
    first.conflictsBy test asksCoexistence second = true ↔
      second.handler ∈ first.handler.exclusiveWith ∧
        ∃ event, event ∈ first.events ∧ event ∈ second.events := by
  rw [← OrderedSet.isDisjoint_eq_false_iff, ← test.passes_iff]
  simp only [conflictsBy, Bool.and_eq_true, Bool.not_eq_true']
  constructor
  case mp => exact fun conflicting => ⟨conflicting.2, conflicting.1.2⟩
  case mpr =>
    intro given
    obtain ⟨passes, shared⟩ := given
    have listed := ExclusionTest.passes_iff.mp passes
    have firstAlone := Handler.coexists_of_mem_exclusiveWith listed
    have secondAlone :=
      Handler.coexists_of_mem_exclusiveWith (Handler.exclusiveWith_comm.mp listed)
    exact ⟨⟨by simp [firstAlone, secondAlone], shared⟩, passes⟩

theorem conflictsBy_eq (test : ExclusionTest) (asksCoexistence : Bool)
    (first second : CollectedAction) :
    first.conflictsBy test asksCoexistence second = first.conflicts second := by
  rw [Bool.eq_iff_iff, conflictsBy_iff, conflicts_iff]

theorem sharedEvents_comm (first second : CollectedAction) :
    first.sharedEvents second = second.sharedEvents first := by
  apply OrderedSet.eq_of_mem_iff
  intro event
  rw [sharedEvents, sharedEvents, OrderedSet.mem_inter, OrderedSet.mem_inter, and_comm]

/-- Actions of one handler that listen to the same events conflict with the same
actions. -/
theorem conflicts_congr {changed : CollectedAction} (sameHandler : changed.handler = first.handler)
    (sameEvents : changed.events = first.events) (second : CollectedAction) :
    changed.conflicts second = first.conflicts second := by
  rw [conflicts, conflicts, sameHandler, sameEvents]

/-- Conflicts are symmetric, and so are shared events. Two actions conflict exactly
if they share an event and each handler lists the other, and every way to ask for
this gives the same answer. Actions of one handler never conflict. The answer stays
the same when a value is written otherwise and still declares the same events, as it
does when only modifiers, targets, brackets, repetitions, the order of events or
a written `ok` change. -/
theorem conflicts_depend (first second : CollectedAction) :
    first.conflicts second = second.conflicts first ∧
    first.sharedEvents second = second.sharedEvents first ∧
    (first.conflicts second = true ↔
      (∃ event, event ∈ first.events ∧ event ∈ second.events) ∧
        second.handler ∈ first.handler.exclusiveWith ∧
        first.handler ∈ second.handler.exclusiveWith) ∧
    (∀ test asksCoexistence,
      first.conflictsBy test asksCoexistence second = first.conflicts second) ∧
    (first.handler = second.handler → first.conflicts second = false) ∧
    (∀ handler attr other changed, collect handler attr = .ok first →
      collect handler other = .ok changed →
      (∀ event, Declares attr.value event ↔ Declares other.value event) →
      changed.conflicts second = first.conflicts second ∧
        second.conflicts changed = second.conflicts first) ∧
    ∀ text other expressions others, parse text = .ok expressions → parse other = .ok others →
      Restyled (expressions.flatten.flatMap Binding.events)
        (others.flatten.flatMap Binding.events) →
      ∀ event, Declares text event ↔ Declares other event := by
  refine ⟨conflicts_comm first second, sharedEvents_comm first second, ?listed,
    fun test asksCoexistence => conflictsBy_eq test asksCoexistence first second,
    conflicts_of_handler_eq, ?rewritten,
    fun text other expressions others parsed => declares_iff_of_restyled parsed⟩
  case listed =>
    rw [conflicts_iff, ← Handler.exclusiveWith_comm, and_self, and_comm]
  case rewritten =>
    intro handler attr other changed collected changedCollected same
    have sameHandler : changed.handler = first.handler :=
      (handler_of_collect changedCollected).trans (handler_of_collect collected).symm
    have sameEvents : changed.events = first.events := by
      apply OrderedSet.eq_of_mem_iff
      intro event
      rw [mem_events_iff changedCollected, mem_events_iff collected, same]
    have unchanged := conflicts_congr sameHandler sameEvents second
    exact ⟨unchanged, by rw [conflicts_comm, unchanged, conflicts_comm]⟩

end CollectedAction

/-- Modifiers, targets, brackets, repetitions, order and a written `ok` are all
changed here. -/
example : declaredEvents "save.once, [load:ok, load].self->list" = declaredEvents "load; save:ok" := by
  decide +kernel

end EventBindings
