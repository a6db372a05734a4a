import EventBindings.Proofs.Element.Arrangement
import Mathlib.Data.List.Perm.Basic

namespace EventBindings

/-!
Elements whose attributes are taken away, repeated or moved. Whether an element
compiles is settled by its attributes one by one and two by two, so their order
and number do not matter to it. Their order in what comes out matters among
those that pass through, and among the actions of one precedence.
-/

namespace Attribute

variable {registry : Registry} {first second : Attribute}

theorem ConflictsWith.symm (conflict : first.ConflictsWith registry second) :
    second.ConflictsWith registry first := by
  obtain ⟨action, other, firstCollects, secondCollects, conflicting⟩ := conflict
  rw [CollectedAction.conflicts_comm] at conflicting
  exact ⟨other, action, secondCollects, firstCollects, conflicting⟩

theorem not_conflictsWith_self (attr : Attribute) : ¬ attr.ConflictsWith registry attr := by
  intro conflict
  obtain ⟨action, other, collects, otherCollects, conflicting⟩ := conflict
  have same : action.request = other.request :=
    Option.some.inj (collects.request?.1.symm.trans otherCollects.request?.1)
  rw [CollectedAction.conflicts_of_handler_eq (congrArg ActionRequest.handler same)] at conflicting
  cases conflicting

/-- The precedence of the handler to which the action of the attribute
resolves. -/
def precedence? (registry : Registry) (attr : Attribute) : Option Nat :=
  (attr.request? registry).map ActionRequest.precedence

end Attribute

variable {registry : Registry} {actions : ActionMap} {attributes part permuted : List Attribute}

theorem Compilable.of_forall_mem (compilable : Compilable registry actions attributes)
    (members : ∀ attr ∈ part, attr ∈ attributes) : Compilable registry actions part where
  each attr member := compilable.each attr (members attr member)
  peaceful first firstMember second secondMember :=
    compilable.peaceful first (members first firstMember) second (members second secondMember)

theorem compilable_iff_pairs : Compilable registry actions attributes ↔
    (∀ attr ∈ attributes, Compilable registry actions [attr]) ∧
      attributes.Pairwise fun first second => Compilable registry actions [first, second] := by
  constructor
  · intro compilable
    constructor
    · intro attr member
      exact compilable.of_forall_mem (by simpa using member)
    · apply List.pairwise_of_forall_mem_list
      intro first firstMember second secondMember
      exact compilable.of_forall_mem (by simpa using ⟨firstMember, secondMember⟩)
  · intro given
    obtain ⟨alone, inPairs⟩ := given
    refine ⟨fun attr member => (alone attr member).each attr (by simp), ?_⟩
    have symmetric : Std.Symm fun first second : Attribute =>
        ¬ first.ConflictsWith registry second :=
      ⟨fun first second peaceful conflict => peaceful conflict.symm⟩
    have peaceful : attributes.Pairwise fun first second => ¬ first.ConflictsWith registry second :=
      inPairs.imp fun both => both.peaceful _ (by simp) _ (by simp)
    exact fun first firstMember second secondMember =>
      peaceful.forall_of_forall (fun attr _ => attr.not_conflictsWith_self) firstMember secondMember

theorem assembled_sublist (within : part.Sublist attributes) :
    (assembled registry actions part).Sublist (assembled registry actions attributes) := by
  have requests := sublist_sortedBy ActionRequest.precedence
    (within.filterMap (Attribute.request? registry))
  exact (within.flatMap _).append (requests.flatMap _)

theorem sortedRequests_perm (permutation : permuted.Perm attributes) :
    (sortedRequests registry permuted).Perm (sortedRequests registry attributes) :=
  (sortedBy_perm _ _).trans ((permutation.filterMap _).trans (sortedBy_perm _ _).symm)

theorem assembled_perm (permutation : permuted.Perm attributes) :
    (assembled registry actions permuted).Perm (assembled registry actions attributes) :=
  (permutation.flatMap_right _).append ((sortedRequests_perm permutation).flatMap_right _)

/-- Two lists have the attributes that pass through in one order, and so have they
the actions of each precedence. -/
structure SameOrder (registry : Registry) (left right : List Attribute) : Prop where
  through : left.filter Attribute.isPassedThrough = right.filter Attribute.isPassedThrough
  requests : ∀ level, left.filter (fun attr => attr.precedence? registry = some level) =
    right.filter (fun attr => attr.precedence? registry = some level)

theorem filter_requests (registry : Registry) (attributes : List Attribute) (level : Nat) :
    (attributes.filterMap (Attribute.request? registry)).filter
        (fun request => request.precedence = level) =
      (attributes.filter (fun attr => attr.precedence? registry = some level)).filterMap
        (Attribute.request? registry) := by
  induction attributes with
  | nil => rfl
  | cons attr attributes ih =>
      rw [List.filterMap_cons, List.filter_cons, Attribute.precedence?]
      cases asked : attr.request? registry with
      | none => simpa using ih
      | some request =>
          by_cases same : request.precedence = level <;> simp [same, asked, ih]

theorem assembled_eq (same : SameOrder registry permuted attributes) :
    assembled registry actions permuted = assembled registry actions attributes := by
  have requests : sortedRequests registry permuted = sortedRequests registry attributes :=
    (stablySorted_sortedBy _ _).eq (stablySorted_sortedBy _ _) fun level => by
      rw [filter_requests, filter_requests, same.requests]
  rw [assembled, assembled, requests, ← flatMap_passedLines_filter, same.through,
    flatMap_passedLines_filter]

/-- An element fails only by one attribute or by two of them. So parts of an
element that compiles compile as well, to a part of what the element does, and
so does whatever consists of its attributes, however often they are repeated. -/
theorem compileElement_local (attributes : List Attribute) (registry : Registry)
    (actions : ActionMap) :
    ((∃ out, compileElement attributes registry actions = .ok out) ↔
      (∀ attr ∈ attributes, ∃ out, compileElement [attr] registry actions = .ok out) ∧
        attributes.Pairwise fun first second =>
          ∃ out, compileElement [first, second] registry actions = .ok out) ∧
    ∀ out, compileElement attributes registry actions = .ok out →
      (∀ part, part.Sublist attributes → ∃ partOut,
        compileElement part registry actions = .ok partOut ∧ partOut.Sublist out) ∧
      ∀ repeated, (∀ attr ∈ repeated, attr ∈ attributes) →
        ∃ repeatedOut, compileElement repeated registry actions = .ok repeatedOut := by
  simp only [exists_compileElement_iff]
  refine ⟨compilable_iff_pairs, fun out compiled => ?_⟩
  obtain ⟨compilable, rfl⟩ := compileElement_eq_ok_iff.mp compiled
  constructor
  · intro part within
    have partCompilable := compilable.of_forall_mem fun attr member => within.subset member
    exact ⟨_, compileElement_of_compilable partCompilable, assembled_sublist within⟩
  · intro repeated members
    exact compilable.of_forall_mem members

/-- The order of the attributes does not matter to whether an element compiles,
nor to which lines it compiles to. Lines change their places only if attributes
that pass through change theirs, or actions of one precedence do. -/
theorem compileElement_permuted {attributes permuted : List Attribute}
    (permutation : permuted.Perm attributes) (registry : Registry) (actions : ActionMap) :
    ((∃ out, compileElement permuted registry actions = .ok out) ↔
      ∃ out, compileElement attributes registry actions = .ok out) ∧
    (∀ out permutedOut, compileElement attributes registry actions = .ok out →
      compileElement permuted registry actions = .ok permutedOut → permutedOut.Perm out) ∧
    (SameOrder registry permuted attributes → ∀ out,
      compileElement permuted registry actions = .ok out ↔
        compileElement attributes registry actions = .ok out) := by
  have compilable : Compilable registry actions permuted ↔ Compilable registry actions attributes :=
    ⟨fun given => given.of_forall_mem fun _ member => permutation.mem_iff.mpr member,
      fun given => given.of_forall_mem fun _ member => permutation.mem_iff.mp member⟩
  refine ⟨?success, ?lines, ?order⟩
  case success => simp only [exists_compileElement_iff, compilable]
  case lines =>
    intro out permutedOut compiled permutedCompiled
    rw [(compileElement_eq_ok_iff.mp compiled).2, (compileElement_eq_ok_iff.mp permutedCompiled).2]
    exact assembled_perm permutation
  case order =>
    intro same out
    rw [compileElement_eq_ok_iff, compileElement_eq_ok_iff, compilable, assembled_eq same]

theorem compileElement_permuted_by_precedence :
    let dispatch : Attribute := ⟨"x-fir-dispatch:[saved]", "save"⟩
    let render : Attribute := ⟨"x-fir-render", "open"⟩
    let refresh : Attribute := ⟨"x-fir-refresh", "load"⟩
    let out : List Attribute := [⟨"@fir:open:ok", "$fir.replace()"⟩,
      ⟨"@fir:load:ok", "$fir.replace()"⟩, ⟨"@fir:save:ok.nohtml", "$dispatch('saved')"⟩]
    [refresh, dispatch, render].Perm [dispatch, render, refresh] ∧
      compileElement [dispatch, render, refresh] .builtin ∅ = .ok out ∧
      compileElement [refresh, dispatch, render] .builtin ∅ = .ok out := by
  intro dispatch render refresh out
  have permutation : [refresh, dispatch, render].Perm [dispatch, render, refresh] := by decide
  have order : SameOrder .builtin [refresh, dispatch, render] [dispatch, render, refresh] := by
    refine ⟨by decide +kernel, fun level => ?_⟩
    have ofDispatch : dispatch.precedence? .builtin = some 33 := by decide +kernel
    have ofRender : render.precedence? .builtin = none := by decide +kernel
    have ofRefresh : refresh.precedence? .builtin = some 20 := by decide +kernel
    simp only [List.filter_cons, List.filter_nil, ofDispatch, ofRender, ofRefresh]
    by_cases low : 20 = level <;> by_cases high : 33 = level <;> simp [low, high]
    omega
  have contributed : [dispatch, render, refresh].mapM (Contribution.ofAttribute .builtin ∅) =
      .ok [.collected ⟨.dispatch, ⟨"x-fir-dispatch:[saved]", "dispatch", ["saved"], "save"⟩,
          .ofList [⟨"save", .ok⟩]⟩,
        .passed [⟨"@fir:open:ok", "$fir.replace()"⟩],
        .collected ⟨.refresh, ⟨"x-fir-refresh", "refresh", [], "load"⟩,
          .ofList [⟨"load", .ok⟩]⟩] := by
    decide +kernel
  have sorted (first second firstEvents secondEvents) :
      byPrecedence [⟨.dispatch, first, firstEvents⟩, ⟨.refresh, second, secondEvents⟩] =
        [⟨.refresh, second, secondEvents⟩, ⟨.dispatch, first, firstEvents⟩] := by
    simp [byPrecedence, List.mergeSort, Handler.precedence]
  have compiled : compileElement [dispatch, render, refresh] .builtin ∅ = .ok out := by
    rw [compileElement, contributed, mapError_ok, ok_bind]
    simp only [List.filterMap_cons, List.filterMap_nil, Contribution.collected?, sorted]
    decide +kernel
  obtain ⟨_, _, moved⟩ := compileElement_permuted permutation .builtin ∅
  exact ⟨permutation, compiled, (moved order out).mpr compiled⟩

end EventBindings
