import EventBindings.Conflict
import Mathlib.Data.List.Pairwise

namespace EventBindings

/-!
The relation of conflict. Each of two handlers that exclude each other lists the
other, and none of them coexists with all, so two actions conflict in either
order or in none, and no action conflicts with itself.
-/

namespace Handler

theorem exclusiveWith_comm {handler other : Handler} :
    other ∈ handler.exclusiveWith ↔ handler ∈ other.exclusiveWith := by
  cases handler <;> cases other <;> decide

theorem not_mem_exclusiveWith (handler : Handler) : handler ∉ handler.exclusiveWith := by
  cases handler <;> decide

theorem coexists_of_mem_exclusiveWith {handler other : Handler}
    (excluded : other ∈ handler.exclusiveWith) : handler.coexists = false := by
  cases handler with
  | reset | toggleDisabled | toggleClass | run | script => cases excluded
  | _ => rfl

end Handler

namespace OrderedSet

variable {α : Type} [LT α] [DecidableEq α] {left right : OrderedSet α}

theorem isDisjoint_eq_false_iff : left.isDisjoint right = false ↔ ∃ a, a ∈ left ∧ a ∈ right := by
  rw [isDisjoint, List.isEmpty_eq_false_iff_exists_mem]
  exact exists_congr fun a => mem_inter

end OrderedSet

namespace CollectedAction

variable {first second : CollectedAction}

theorem conflicts_iff : first.conflicts second = true ↔
    second.handler ∈ first.handler.exclusiveWith ∧
      ∃ event, event ∈ first.events ∧ event ∈ second.events := by
  rw [← OrderedSet.isDisjoint_eq_false_iff]
  constructor
  · intro conflicting
    simp only [conflicts, Bool.and_eq_true, Bool.not_eq_true', decide_eq_true_eq,
      Bool.or_eq_true] at conflicting
    refine ⟨?_, conflicting.1.2⟩
    rcases conflicting.2 with listed | listed
    · exact listed
    · exact Handler.exclusiveWith_comm.mpr listed
  · intro given
    obtain ⟨excluded, shared⟩ := given
    have firstAlone := Handler.coexists_of_mem_exclusiveWith excluded
    have secondAlone :=
      Handler.coexists_of_mem_exclusiveWith (Handler.exclusiveWith_comm.mp excluded)
    simp [conflicts, firstAlone, secondAlone, shared, excluded]

theorem conflicts_comm (first second : CollectedAction) :
    first.conflicts second = second.conflicts first := by
  rw [Bool.eq_iff_iff, conflicts_iff, conflicts_iff, Handler.exclusiveWith_comm]
  simp only [and_comm]

theorem conflicts_of_handler_eq (same : first.handler = second.handler) :
    first.conflicts second = false := by
  rw [Bool.eq_false_iff, Ne, conflicts_iff, same]
  exact fun given => Handler.not_mem_exclusiveWith _ given.1

end CollectedAction

section FirstPair

variable {α : Type} {related : α → α → Bool} {items : List α}

theorem firstPair?_eq_none_iff :
    firstPair? related items = none ↔ items.Pairwise fun a b => related a b = false := by
  induction items with
  | nil => simp [firstPair?]
  | cons item items ih =>
      rw [firstPair?, List.pairwise_cons, ← ih]
      cases partner : items.find? (related item) with
      | none =>
          have unrelated := List.find?_eq_none.mp partner
          simpa using fun _ => unrelated
      | some other =>
          have member := List.mem_of_find?_eq_some partner
          have holds := List.find?_some partner
          simp only [reduceCtorEq, false_iff, not_and]
          intro unrelated
          rw [unrelated other member] at holds
          cases holds

theorem mem_of_firstPair? {pair : α × α} (found : firstPair? related items = some pair) :
    pair.1 ∈ items ∧ pair.2 ∈ items ∧ related pair.1 pair.2 = true := by
  induction items with
  | nil => cases found
  | cons item items ih =>
      rw [firstPair?] at found
      cases partner : items.find? (related item) with
      | none =>
          simp only [partner] at found
          obtain ⟨firstMember, secondMember, holds⟩ := ih found
          exact ⟨List.mem_cons_of_mem _ firstMember, List.mem_cons_of_mem _ secondMember, holds⟩
      | some other =>
          simp only [partner, Option.some.injEq] at found
          subst found
          exact ⟨List.mem_cons_self, List.mem_cons_of_mem _ (List.mem_of_find?_eq_some partner),
            List.find?_some partner⟩

end FirstPair

/-- The order of the actions does not matter to whether two of them conflict. -/
theorem checkConflicts_eq_ok_iff {actions : List CollectedAction} :
    checkConflicts actions = .ok () ↔
      ∀ first ∈ actions, ∀ second ∈ actions, first.conflicts second = false := by
  have symmetric : Std.Symm fun first second : CollectedAction => first.conflicts second = false :=
    ⟨fun first second peaceful => by rwa [CollectedAction.conflicts_comm]⟩
  have accepted : checkConflicts actions = .ok () ↔
      firstPair? CollectedAction.conflicts actions = none := by
    unfold checkConflicts
    split <;> simp_all
  rw [accepted, firstPair?_eq_none_iff]
  constructor
  · intro pairwise first firstMember second secondMember
    exact pairwise.forall_of_forall
      (fun action _ => CollectedAction.conflicts_of_handler_eq rfl) firstMember secondMember
  · intro peaceful
    exact List.pairwise_of_forall_mem_list peaceful

end EventBindings
