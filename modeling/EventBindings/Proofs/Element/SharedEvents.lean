import EventBindings.Proofs.Element.Assembly
import EventBindings.Proofs.KeyEvents

namespace EventBindings

/-!
Events shared by actions that exclude each other. An element that compiles has
none in its keys, and a reported conflict names exactly those that there are.
-/

variable {registry : Registry} {actions : ActionMap} {attributes : List Attribute}

theorem Handler.ne_toggleDisabled_of_mem {handler other : Handler}
    (excluded : other ∈ handler.exclusiveWith) : handler ≠ .toggleDisabled := by
  rintro rfl
  cases excluded

theorem Attribute.named_of_request? {attr : Attribute} {request : ActionRequest}
    (asked : attr.request? registry = some request) :
    ∀ param ∈ request.action.params, IsName param := by
  obtain ⟨_, read, _⟩ := Attribute.request?_eq_some_iff.mp asked
  obtain ⟨parsed, readKey, same⟩ := ActionAttribute.parse_eq_ok_iff.mp read
  rw [same]
  exact ActionKey.named_of_parse readKey

namespace Attribute.Collects

variable {attr : Attribute} {action : CollectedAction}
  (collects : attr.Collects registry action)
include collects

/-- The events that are compared stand in the keys that a handler emits, if
another one excludes it. -/
theorem standsIn_translate_iff {other : Handler}
    (excluded : other ∈ action.handler.exclusiveWith) {lines : List Attribute}
    (translated : action.request.translate actions = .ok lines) {event : Event} :
    (∃ line ∈ lines, event.StandsIn line.key) ↔ event ∈ action.events := by
  have named := Attribute.named_of_request? collects.request?.1
  obtain ⟨_, _, _, declared⟩ := collects
  exact Handler.standsIn_translate_iff named (Handler.ne_toggleDisabled_of_mem excluded)
    translated declared

theorem exists_compileExpression (actions : ActionMap) :
    ∃ lines, compileExpression attr.value actions = .ok lines ∧
      ∀ event : Event, (∃ line ∈ lines, event.StandsIn line.key) ↔ event ∈ action.events := by
  have declared := collects.request?.2
  cases compiled : compileExpression attr.value actions with
  | ok lines => exact ⟨lines, rfl, fun event => standsIn_compileExpression_iff compiled declared⟩
  | error fault =>
      rw [compileExpression_eq_error_iff, ← declaredEvents_eq_error_iff, declared] at compiled
      cases compiled

end Attribute.Collects

/-- What an action emits is in what its element compiles to, and its keys can be
read. -/
theorem emitted_of_request? {attr : Attribute} {request : ActionRequest}
    (member : attr ∈ attributes) (asked : attr.request? registry = some request)
    {lines : List Attribute} (translated : request.translate actions = .ok lines) :
    ∀ line ∈ lines, line ∈ assembled registry actions attributes ∧
      ∃ events, eventsOfKey? line.key = some events := by
  intro line inLines
  have emitted := Handler.emitted_of_translate (Attribute.named_of_request? asked) translated
    line inLines
  rw [← ActionRequest.lines_of_translate translated] at inLines
  have sorted : request ∈ sortedRequests registry attributes :=
    mem_sortedRequests_iff.mpr ⟨attr, member, asked⟩
  exact ⟨List.mem_append_right _ (List.mem_flatMap.mpr ⟨request, sorted, inLines⟩),
    emitted.eventsOfKey?⟩

theorem exists_conflict_of_reported {firstKey secondKey : String} {events : OrderedSet Event}
    (reported : compileElement attributes registry actions =
      .error (.conflict firstKey secondKey events)) :
    ∃ first ∈ attributes, ∃ second ∈ attributes, ∃ action other,
      first.Collects registry action ∧ second.Collects registry other ∧
      action.conflicts other = true ∧
      action.conflictError other = .conflict firstKey secondKey events := by
  rcases bind_eq_error_iff.mp reported with failed | ⟨contributions, contributed, reported⟩
  · cases given : attributes.mapM (Contribution.ofAttribute registry actions) <;>
      simp [given] at failed
  rw [mapError_eq_ok_iff] at contributed
  have collected {action : CollectedAction} (member : action ∈
      byPrecedence (contributions.filterMap Contribution.collected?)) :
      ∃ attr ∈ attributes, attr.Collects registry action :=
    (mem_collected_iff contributed).mp (List.mem_mergeSort.mp member)
  rcases bind_eq_error_iff.mp reported with refused | ⟨_, _, reported⟩
  · unfold checkConflicts at refused
    split at refused
    next action other found =>
      obtain ⟨firstMember, secondMember, conflicting⟩ := mem_of_firstPair? found
      obtain ⟨first, firstIn, firstCollects⟩ := collected firstMember
      obtain ⟨second, secondIn, secondCollects⟩ := collected secondMember
      exact ⟨first, firstIn, second, secondIn, action, other, firstCollects, secondCollects,
        conflicting, Except.error.inj refused⟩
    next => cases refused
  · rcases bind_eq_error_iff.mp reported with failed | ⟨_, _, reported⟩
    · obtain ⟨early, action, late, same, _, failed⟩ := mapM_eq_error_iff.mp failed
      obtain ⟨attr, _, collects⟩ := @collected action (by simp [same])
      obtain ⟨expressions, parsed⟩ := collects.parsed
      rcases Handler.translate_error parsed failed with
        contrary | ⟨_, contrary⟩ | ⟨_, _, contrary⟩ <;> cases contrary
    · cases reported

/-- No event stands both in a key of an action and in one of another action that
excludes it, when the element compiles. When a conflict is reported, there are two
such actions, and the events of the report are all that stand in keys of both
values, of which there is one at least. -/
theorem compileElement_shared_events (attributes : List Attribute) (registry : Registry)
    (actions : ActionMap) :
    (∀ out, compileElement attributes registry actions = .ok out →
      ∀ first ∈ attributes, ∀ second ∈ attributes, ∀ request other,
        first.request? registry = some request → second.request? registry = some other →
        other.handler ∈ request.handler.exclusiveWith →
        ∃ lines otherLines, request.translate actions = .ok lines ∧
          other.translate actions = .ok otherLines ∧
          (∀ line ∈ lines ++ otherLines, line ∈ out ∧
            ∃ events, eventsOfKey? line.key = some events) ∧
          ∀ line ∈ lines, ∀ otherLine ∈ otherLines, ∀ event : Event,
            event.StandsIn line.key → ¬ event.StandsIn otherLine.key) ∧
    ∀ firstKey secondKey events,
      compileElement attributes registry actions = .error (.conflict firstKey secondKey events) →
      ∃ first ∈ attributes, ∃ second ∈ attributes, ∃ request other lines otherLines,
        first.key = firstKey ∧ second.key = secondKey ∧
        first.request? registry = some request ∧ second.request? registry = some other ∧
        other.handler ∈ request.handler.exclusiveWith ∧
        request.handler ∈ other.handler.exclusiveWith ∧
        compileExpression first.value actions = .ok lines ∧
        compileExpression second.value actions = .ok otherLines ∧
        events.toList ≠ [] ∧ events.toList.Pairwise (· < ·) ∧
        ∀ event : Event, event ∈ events.toList ↔
          (∃ line ∈ lines, event.StandsIn line.key) ∧
            ∃ line ∈ otherLines, event.StandsIn line.key := by
  refine ⟨?compiled, ?reported⟩
  case compiled =>
    intro out compiled first firstMember second secondMember request other asked otherAsked excluded
    obtain ⟨compilable, rfl⟩ := compileElement_eq_ok_iff.mp compiled
    obtain ⟨lines, translated⟩ := (compilable.each first firstMember).translated request asked
    obtain ⟨otherLines, otherTranslated⟩ :=
      (compilable.each second secondMember).translated other otherAsked
    refine ⟨lines, otherLines, translated, otherTranslated, ?emitted, ?apart⟩
    case emitted =>
      exact List.forall_mem_append.mpr
        ⟨emitted_of_request? firstMember asked translated,
          emitted_of_request? secondMember otherAsked otherTranslated⟩
    case apart =>
      intro line member otherLine otherMember event stands otherStands
      obtain ⟨action, collects, rfl⟩ :=
        (compilable.each first firstMember).grammatical.exists_collects asked
      obtain ⟨rival, otherCollects, rfl⟩ :=
        (compilable.each second secondMember).grammatical.exists_collects otherAsked
      have triggers : event ∈ action.events :=
        (collects.standsIn_translate_iff excluded translated).mp ⟨line, member, stands⟩
      have otherTriggers : event ∈ rival.events :=
        (otherCollects.standsIn_translate_iff (Handler.exclusiveWith_comm.mp excluded)
          otherTranslated).mp ⟨otherLine, otherMember, otherStands⟩
      exact compilable.peaceful first firstMember second secondMember
        ⟨action, rival, collects, otherCollects,
          CollectedAction.conflicts_iff.mpr ⟨excluded, event, triggers, otherTriggers⟩⟩
  case reported =>
    intro firstKey secondKey events reported
    obtain ⟨first, firstMember, second, secondMember, action, other, collects, otherCollects,
      conflicting, same⟩ := exists_conflict_of_reported reported
    obtain ⟨excluded, event, triggers, otherTriggers⟩ := CollectedAction.conflicts_iff.mp conflicting
    obtain ⟨lines, compiled, inLines⟩ := collects.exists_compileExpression actions
    obtain ⟨otherLines, otherCompiled, inOtherLines⟩ :=
      otherCollects.exists_compileExpression actions
    simp only [CollectedAction.conflictError, ActionError.conflict.injEq] at same
    obtain ⟨rfl, rfl, rfl⟩ := same
    refine ⟨first, firstMember, second, secondMember, action.request, other.request, lines,
      otherLines, collects.key_eq.symm, otherCollects.key_eq.symm, collects.request?.1,
      otherCollects.request?.1, excluded, Handler.exclusiveWith_comm.mp excluded, compiled,
      otherCompiled, ?nonempty, (action.sharedEvents other).ascending, ?members⟩
    case nonempty =>
      exact List.ne_nil_of_mem (OrderedSet.mem_inter.mpr ⟨triggers, otherTriggers⟩)
    case members =>
      intro event
      rw [inLines, inOtherLines]
      exact OrderedSet.mem_inter

end EventBindings
