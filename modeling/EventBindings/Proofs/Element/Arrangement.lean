import EventBindings.Proofs.Element.Assembly
import Mathlib.Data.List.Forall2

namespace EventBindings

/-!
What an element compiles to, and in which order. Whatever passes through comes
first as it stands in the document, then come the actions by the precedence of
their handlers. Attributes that are ignored might as well not be there.
-/

variable {registry : Registry} {actions : ActionMap} {attributes : List Attribute}

theorem Attribute.passes_passedLines {attr : Attribute} (grammatical : attr.Grammatical registry)
    (through : attr.isPassedThrough = true) :
    attr.Passes actions (attr.passedLines registry actions) := by
  obtain ⟨contribution, contributed⟩ := (grammatical_iff actions).mp grammatical
  rw [passedLines, contributed]
  exact Contribution.passes contributed through

theorem Attribute.passedLines_of_stays {attr : Attribute} (stays : attr.isPassedThrough = false) :
    attr.passedLines registry actions = [] := by
  unfold passedLines
  split
  next contribution contributed => exact Contribution.passed?_eq_nil contributed stays
  next => rfl

theorem flatMap_passedLines_filter (registry : Registry) (actions : ActionMap)
    (attributes : List Attribute) :
    (attributes.filter Attribute.isPassedThrough).flatMap
        (Attribute.passedLines registry actions) =
      attributes.flatMap (Attribute.passedLines registry actions) := by
  induction attributes with
  | nil => rfl
  | cons attr attributes ih =>
      rw [List.filter_cons, List.flatMap_cons, ← ih]
      cases through : attr.isPassedThrough with
      | true => rfl
      | false => simp [Attribute.passedLines_of_stays through]

/-- The steps of compiling an element after its attributes are read. -/
def arrange (actions : ActionMap) (contributions : List Contribution) :
    Except ActionError (List Attribute) := do
  let collected := byPrecedence (contributions.filterMap Contribution.collected?)
  checkConflicts collected
  let translated ← collected.mapM fun action => action.handler.translate action.attr actions
  return contributions.flatMap Contribution.passed? ++ translated.flatten

def unskipped (contributions : List Contribution) : List Contribution :=
  contributions.filter (· ≠ .skipped)

theorem unskipped_cons (contribution : Contribution) (contributions : List Contribution) :
    unskipped (contribution :: contributions) =
      if contribution = .skipped then unskipped contributions
      else contribution :: unskipped contributions := by
  by_cases same : contribution = .skipped <;> simp [unskipped, same]

theorem filterMap_collected?_unskipped (contributions : List Contribution) :
    (unskipped contributions).filterMap Contribution.collected? =
      contributions.filterMap Contribution.collected? := by
  induction contributions with
  | nil => rfl
  | cons contribution contributions ih =>
      rw [unskipped_cons, List.filterMap_cons, ← ih]
      cases contribution <;> rfl

theorem flatMap_passed?_unskipped (contributions : List Contribution) :
    (unskipped contributions).flatMap Contribution.passed? =
      contributions.flatMap Contribution.passed? := by
  induction contributions with
  | nil => rfl
  | cons contribution contributions ih =>
      rw [unskipped_cons, List.flatMap_cons, ← ih]
      cases contribution <;> rfl

theorem compileElement_eq_arrange (attributes : List Attribute) :
    compileElement attributes registry actions =
      (unskipped <$> attributes.mapM (Contribution.ofAttribute registry actions)).mapError .grammar >>=
        arrange actions := by
  rw [compileElement]
  cases attributes.mapM (Contribution.ofAttribute registry actions) with
  | error fault => rfl
  | ok contributions =>
      rw [Except.map_ok, mapError_ok, mapError_ok, ok_bind, ok_bind, arrange,
        filterMap_collected?_unskipped, flatMap_passed?_unskipped]

theorem unskipped_mapM_filter {kept : Attribute → Bool}
    (ignored : ∀ attr ∈ attributes, kept attr = false → attr.Ignored registry) :
    unskipped <$> (attributes.filter kept).mapM (Contribution.ofAttribute registry actions) =
      unskipped <$> attributes.mapM (Contribution.ofAttribute registry actions) := by
  induction attributes with
  | nil => rfl
  | cons attr attributes ih =>
      rw [List.forall_mem_cons] at ignored
      have rest := ih ignored.2
      rw [List.filter_cons, List.mapM_cons]
      cases keeps : kept attr with
      | false =>
          rw [Contribution.skipped_of_ignored actions (ignored.1 keeps), ok_bind]
          rw [if_neg Bool.false_ne_true, rest]
          cases attributes.mapM (Contribution.ofAttribute registry actions) with
          | error fault => rfl
          | ok contributions => simp [unskipped_cons]
      | true =>
          rw [if_pos rfl, List.mapM_cons]
          cases Contribution.ofAttribute registry actions attr with
          | error fault => rfl
          | ok contribution =>
              cases left : (attributes.filter kept).mapM
                  (Contribution.ofAttribute registry actions) <;>
                cases right : attributes.mapM (Contribution.ofAttribute registry actions) <;>
                simp_all [unskipped_cons]

/-- What passes through comes first, as it stands in the document, and then the
actions by precedence. Leaving out attributes that are ignored changes nothing,
not even the error. -/
theorem compileElement_arranged (attributes : List Attribute) (registry : Registry)
    (actions : ActionMap) :
    (∀ out, compileElement attributes registry actions = .ok out →
      ∃ passed ranked translated,
        List.Forall₂ (Attribute.Passes actions) (attributes.filter Attribute.isPassedThrough)
          passed ∧
        StablySorted ActionRequest.precedence (attributes.filterMap (Attribute.request? registry))
          ranked ∧
        List.Forall₂ (fun request lines => request.translate actions = .ok lines) ranked
          translated ∧
        out = passed.flatten ++ translated.flatten) ∧
    ∀ kept : Attribute → Bool,
      (∀ attr ∈ attributes, kept attr = false → attr.Ignored registry) →
      compileElement (attributes.filter kept) registry actions =
        compileElement attributes registry actions := by
  refine ⟨fun out compiled => ?arranged, fun kept ignored => ?unmoved⟩
  case arranged =>
    obtain ⟨compilable, rfl⟩ := compileElement_eq_ok_iff.mp compiled
    refine ⟨(attributes.filter Attribute.isPassedThrough).map
        (Attribute.passedLines registry actions), sortedRequests registry attributes,
      (sortedRequests registry attributes).map (ActionRequest.lines actions), ?_,
      stablySorted_sortedBy _ _, ?_, ?_⟩
    · rw [List.forall₂_map_right_iff, List.forall₂_same]
      intro attr member
      obtain ⟨inElement, through⟩ := List.mem_filter.mp member
      exact Attribute.passes_passedLines (compilable.each attr inElement).grammatical through
    · rw [List.forall₂_map_right_iff, List.forall₂_same]
      intro request member
      obtain ⟨attr, inElement, asked⟩ := mem_sortedRequests_iff.mp member
      obtain ⟨lines, translated⟩ := (compilable.each attr inElement).translated request asked
      rw [ActionRequest.lines_of_translate translated]
      exact translated
    · rw [← List.flatMap_def, ← List.flatMap_def, flatMap_passedLines_filter]
      rfl
  case unmoved =>
    rw [compileElement_eq_arrange, compileElement_eq_arrange, unskipped_mapM_filter ignored]

end EventBindings
