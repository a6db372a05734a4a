import EventBindings.Proofs.Conflict
import EventBindings.Proofs.Element.Requests
import EventBindings.Proofs.StableOrder
import Mathlib.Data.List.Flatten

namespace EventBindings

/-!
When an element compiles, and to what. It compiles if each attribute does by
itself and no two of them conflict. What comes out is put together from what
each attribute gives, and no attribute changes what another one gives.
-/

/-- What the attribute gives to the lines that pass through. -/
def Attribute.passedLines (registry : Registry) (actions : ActionMap) (attr : Attribute) :
    List Attribute :=
  match Contribution.ofAttribute registry actions attr with
  | .ok contribution => contribution.passed?
  | .error _ => []

def ActionRequest.lines (actions : ActionMap) (request : ActionRequest) : List Attribute :=
  match request.translate actions with
  | .ok lines => lines
  | .error _ => []

/-- The actions that an element asks for, in the order in which they emit. -/
def sortedRequests (registry : Registry) (attributes : List Attribute) : List ActionRequest :=
  sortedBy ActionRequest.precedence (attributes.filterMap (Attribute.request? registry))

def assembled (registry : Registry) (actions : ActionMap) (attributes : List Attribute) :
    List Attribute :=
  attributes.flatMap (Attribute.passedLines registry actions) ++
    (sortedRequests registry attributes).flatMap (ActionRequest.lines actions)

/-- The attribute fails neither by its texts nor by its handler. -/
structure Attribute.Compilable (registry : Registry) (actions : ActionMap) (attr : Attribute) :
    Prop where
  grammatical : attr.Grammatical registry
  translated : ∀ request ∈ attr.request? registry,
    ∃ lines, request.translate actions = .ok lines

def Attribute.ConflictsWith (registry : Registry) (first second : Attribute) : Prop :=
  ∃ action other, first.Collects registry action ∧ second.Collects registry other ∧
    action.conflicts other = true

structure Compilable (registry : Registry) (actions : ActionMap) (attributes : List Attribute) :
    Prop where
  each : ∀ attr ∈ attributes, attr.Compilable registry actions
  peaceful : ∀ first ∈ attributes, ∀ second ∈ attributes, ¬ first.ConflictsWith registry second

theorem ActionRequest.lines_of_translate {request : ActionRequest} {actions : ActionMap}
    {lines : List Attribute} (translated : request.translate actions = .ok lines) :
    request.lines actions = lines := by
  rw [ActionRequest.lines, translated]

section Contributed

variable {registry : Registry} {actions : ActionMap} {attributes : List Attribute}
  {contributions : List Contribution}
  (contributed : attributes.mapM (Contribution.ofAttribute registry actions) = .ok contributions)
include contributed

theorem flatMap_passed? : contributions.flatMap Contribution.passed? =
    attributes.flatMap (Attribute.passedLines registry actions) := by
  induction attributes generalizing contributions with
  | nil =>
      cases contributed
      rfl
  | cons attr attributes ih =>
      obtain ⟨first, others, given, rest, rfl⟩ := mapM_cons_eq_ok_iff.mp contributed
      rw [List.flatMap_cons, List.flatMap_cons, ih rest, Attribute.passedLines, given]

theorem map_request_collected : (contributions.filterMap Contribution.collected?).map
    CollectedAction.request = attributes.filterMap (Attribute.request? registry) := by
  induction attributes generalizing contributions with
  | nil =>
      cases contributed
      rfl
  | cons attr attributes ih =>
      obtain ⟨first, others, given, rest, rfl⟩ := mapM_cons_eq_ok_iff.mp contributed
      rw [List.filterMap_cons, List.filterMap_cons, ← ih rest, Contribution.request?_eq given]
      cases first.collected? <;> rfl

theorem mem_collected_iff {action : CollectedAction} :
    action ∈ contributions.filterMap Contribution.collected? ↔
      ∃ attr ∈ attributes, attr.Collects registry action := by
  rw [List.mem_filterMap]
  constructor
  · intro given
    obtain ⟨contribution, member, collected⟩ := given
    obtain ⟨attr, inElement, offered⟩ := exists_of_mapM contributed contribution member
    exact ⟨attr, inElement, Contribution.collects_of_collected? offered collected⟩
  · intro given
    obtain ⟨attr, inElement, collects⟩ := given
    obtain ⟨place, inPlace⟩ := List.mem_iff_getElem?.mp inElement
    have found := (getElem?_of_mapM contributed).mpr
      ⟨attr, inPlace, Contribution.ofAttribute_of_collects collects⟩
    exact ⟨_, List.mem_of_getElem? found, rfl⟩

theorem checkConflicts_collected_iff :
    checkConflicts (byPrecedence (contributions.filterMap Contribution.collected?)) = .ok () ↔
      ∀ first ∈ attributes, ∀ second ∈ attributes, ¬ first.ConflictsWith registry second := by
  simp only [checkConflicts_eq_ok_iff, byPrecedence, List.mem_mergeSort,
    mem_collected_iff contributed]
  constructor
  · intro peaceful first firstMember second secondMember conflict
    obtain ⟨action, other, firstCollects, secondCollects, conflicting⟩ := conflict
    rw [peaceful action ⟨first, firstMember, firstCollects⟩ other
      ⟨second, secondMember, secondCollects⟩] at conflicting
    cases conflicting
  · intro peaceful action collected other otherCollected
    obtain ⟨first, firstMember, firstCollects⟩ := collected
    obtain ⟨second, secondMember, secondCollects⟩ := otherCollected
    exact Bool.eq_false_iff.mpr fun conflicting => peaceful first firstMember second secondMember
      ⟨action, other, firstCollects, secondCollects, conflicting⟩

theorem map_request_byPrecedence :
    (byPrecedence (contributions.filterMap Contribution.collected?)).map CollectedAction.request =
      sortedRequests registry attributes := by
  rw [sortedRequests, ← map_request_collected contributed]
  exact List.map_mergeSort fun _ _ _ _ => rfl

end Contributed

variable {registry : Registry} {actions : ActionMap} {attributes : List Attribute}

theorem mem_sortedRequests_iff {request : ActionRequest} :
    request ∈ sortedRequests registry attributes ↔
      ∃ attr ∈ attributes, attr.request? registry = some request := by
  rw [sortedRequests, (sortedBy_perm _ _).mem_iff, List.mem_filterMap]

theorem compilable_of_compileElement {out : List Attribute}
    (compiled : compileElement attributes registry actions = .ok out) :
    Compilable registry actions attributes := by
  obtain ⟨contributions, contributed, compiled⟩ := bind_eq_ok_iff.mp compiled
  obtain ⟨_, accepted, compiled⟩ := bind_eq_ok_iff.mp compiled
  obtain ⟨translated, translation, _⟩ := bind_eq_ok_iff.mp compiled
  rw [mapError_eq_ok_iff] at contributed
  refine ⟨fun attr member => ⟨?grammatical, ?translated⟩,
    (checkConflicts_collected_iff contributed).mp accepted⟩
  case grammatical =>
    exact (grammatical_iff actions).mpr (forall_of_mapM contributed attr member)
  case translated =>
    intro request asked
    have sorted : request ∈ (byPrecedence (contributions.filterMap
        Contribution.collected?)).map CollectedAction.request := by
      rw [map_request_byPrecedence contributed, mem_sortedRequests_iff]
      exact ⟨attr, member, asked⟩
    obtain ⟨action, collected, rfl⟩ := List.mem_map.mp sorted
    exact forall_of_mapM translation action collected

theorem compileElement_of_compilable (compilable : Compilable registry actions attributes) :
    compileElement attributes registry actions = .ok (assembled registry actions attributes) := by
  obtain ⟨contributions, contributed⟩ := exists_contributions actions fun attr member =>
    (compilable.each attr member).grammatical
  have sorted := map_request_byPrecedence contributed
  have translated : (byPrecedence (contributions.filterMap Contribution.collected?)).mapM
      (fun action => action.handler.translate action.attr actions) =
        .ok ((byPrecedence (contributions.filterMap Contribution.collected?)).map
          fun action => action.request.lines actions) := by
    apply mapM_of_forall
    intro action member
    have asked : action.request ∈ sortedRequests registry attributes := by
      rw [← sorted]
      exact List.mem_map_of_mem member
    obtain ⟨attr, inElement, asked⟩ := mem_sortedRequests_iff.mp asked
    obtain ⟨lines, succeeds⟩ := (compilable.each attr inElement).translated _ asked
    rw [ActionRequest.lines_of_translate succeeds]
    exact succeeds
  have accepted := (checkConflicts_collected_iff contributed).mpr compilable.peaceful
  rw [compileElement, contributed, mapError_ok, ok_bind]
  dsimp only
  rw [accepted, ok_bind, translated, ok_bind, flatMap_passed? contributed, assembled, ← sorted,
    List.flatMap_map]
  rfl

/-- An element compiles exactly if its attributes do and are at peace, and then to
what they give. -/
theorem compileElement_eq_ok_iff {out : List Attribute} :
    compileElement attributes registry actions = .ok out ↔
      Compilable registry actions attributes ∧ out = assembled registry actions attributes := by
  constructor
  · intro compiled
    have compilable := compilable_of_compileElement compiled
    rw [compileElement_of_compilable compilable, Except.ok.injEq] at compiled
    exact ⟨compilable, compiled.symm⟩
  · intro given
    obtain ⟨compilable, rfl⟩ := given
    exact compileElement_of_compilable compilable

theorem exists_compileElement_iff :
    (∃ out, compileElement attributes registry actions = .ok out) ↔
      Compilable registry actions attributes := by
  simp only [compileElement_eq_ok_iff, exists_and_left, exists_eq, and_true]

end EventBindings
