import EventBindings.Proofs.Conflict
import EventBindings.Proofs.Element.Precedence
import EventBindings.Proofs.Text.ByteOrder

namespace EventBindings

/-!
The conflict that is reported. Of all pairs of actions that conflict it is the one
with the least first place, and then with the least second place. The report
lists the shared events in the order of the bytes of their names.
-/

/-- By the bytes of their names first, then by outcome. -/
def Event.BytesPrecede (left right : Event) : Prop :=
  left.name.toByteArray.data.toList < right.name.toByteArray.data.toList ∨
    left.name = right.name ∧ left.state.rank < right.state.rank

theorem Event.bytesPrecede_iff {left right : Event} : left.BytesPrecede right ↔ left < right := by
  rw [BytesPrecede, Text.toByteArray_lt_iff, lt_iff]

section Places

variable {α : Type} {related : α → α → Bool} {items : List α}

/-- The members in two places of a list are related, the earlier place first. -/
def RelatedPlaces (related : α → α → Bool) (items : List α) (places : Nat × Nat) : Prop :=
  places.1 < places.2 ∧ ∃ first second, items[places.1]? = some first ∧
    items[places.2]? = some second ∧ related first second = true

/-- The first pair stands in the least places. -/
theorem least_places_of_firstPair? {pair : α × α} (found : firstPair? related items = some pair) :
    ∃ places, Least (Prod.Lex (· < ·) (· < ·)) (RelatedPlaces related items) places ∧
      items[places.1]? = some pair.1 ∧ items[places.2]? = some pair.2 := by
  have placed : firstPair? related (items.zipIdx.map Prod.fst) = _ := firstPair?_map Prod.fst
  rw [List.zipIdx_map_fst, found] at placed
  obtain ⟨⟨first, second⟩, foundPlaced, rfl⟩ := Option.map_eq_some_iff.mp placed.symm
  have least := least_of_firstPair? (fun _ _ => Nat.lt_asymm) (pairwise_zipIdx items) foundPlaced
  obtain ⟨firstMember, secondMember, inOrder, holds⟩ := least.holds
  have firstFound := List.mem_zipIdx_iff_getElem?.mp firstMember
  have secondFound := List.mem_zipIdx_iff_getElem?.mp secondMember
  refine ⟨(first.2, second.2), ⟨⟨inOrder, _, _, firstFound, secondFound, holds⟩, ?_⟩,
    firstFound, secondFound⟩
  intro places given
  obtain ⟨otherOrder, otherFirst, otherSecond, otherFirstFound, otherSecondFound, otherHolds⟩ :=
    given
  rcases least.first ((otherFirst, places.1), (otherSecond, places.2))
    ⟨List.mem_zipIdx_iff_getElem?.mpr otherFirstFound,
      List.mem_zipIdx_iff_getElem?.mpr otherSecondFound, otherOrder, otherHolds⟩ with same | later
  · cases same
    exact .inl rfl
  · cases later with
    | left _ _ below => exact .inr (.left _ _ below)
    | right _ below => exact .inr (.right _ below)

end Places

/-- Actions are accepted exactly if no action conflicts with a later one. Otherwise
the least pair of places with a conflict is reported, by the keys of both
attributes and by the events that both listen to. There are such events, and they
are listed in ascending order. -/
theorem checkConflicts_least_pair (actions : List CollectedAction) :
    (checkConflicts actions = .ok () ↔
      ∀ (i j : Nat) (first second : CollectedAction), i < j → actions[i]? = some first →
        actions[j]? = some second → first.conflicts second = false) ∧
    (checkConflicts actions ≠ .ok () →
      ∃ places first second events,
        Least (Prod.Lex (· < ·) (· < ·)) (RelatedPlaces CollectedAction.conflicts actions) places ∧
        actions[places.1]? = some first ∧ actions[places.2]? = some second ∧
        checkConflicts actions = .error (.conflict first.attr.key second.attr.key events) ∧
        events.toList ≠ [] ∧ events.toList.Pairwise Event.BytesPrecede ∧
        ∀ event, event ∈ events.toList ↔ event ∈ first.events ∧ event ∈ second.events) := by
  cases found : firstPair? CollectedAction.conflicts actions with
  | none =>
      have accepted : checkConflicts actions = .ok () := by rw [checkConflicts, found]
      refine ⟨⟨fun _ => ?_, fun _ => accepted⟩, fun refused => absurd accepted refused⟩
      intro i j first second below firstFound secondFound
      have peaceful := List.pairwise_iff_getElem.mp (firstPair?_eq_none_iff.mp found)
      obtain ⟨firstBound, rfl⟩ := List.getElem?_eq_some_iff.mp firstFound
      obtain ⟨secondBound, rfl⟩ := List.getElem?_eq_some_iff.mp secondFound
      exact peaceful i j firstBound secondBound below
  | some pair =>
      obtain ⟨first, second⟩ := pair
      have reported : checkConflicts actions = .error (first.conflictError second) := by
        rw [checkConflicts, found]
      obtain ⟨places, least, firstFound, secondFound⟩ := least_places_of_firstPair? found
      have conflicting : first.conflicts second = true := (mem_of_firstPair? found).2.2
      refine ⟨⟨fun accepted => ?_, fun peaceful => ?_⟩, fun _ => ?_⟩
      · rw [reported] at accepted
        cases accepted
      · rw [peaceful _ _ _ _ least.holds.1 firstFound secondFound] at conflicting
        cases conflicting
      · obtain ⟨_, event, triggers, alsoTriggers⟩ := CollectedAction.conflicts_iff.mp conflicting
        refine ⟨places, first, second, first.sharedEvents second, least, firstFound, secondFound,
          reported, ?_, ?_, fun event => OrderedSet.mem_inter⟩
        · exact List.ne_nil_of_mem (OrderedSet.mem_inter.mpr ⟨triggers, alsoTriggers⟩)
        · exact (first.sharedEvents second).ascending.imp Event.bytesPrecede_iff.mpr

/-- The first place decides, so a pair farther apart can come first. -/
example :
    let action (handler : Handler) (key : String) (events : List Event) : CollectedAction :=
      ⟨handler, ⟨key, handler.name, [], ""⟩, .ofList events⟩
    checkConflicts
        [action .removeParent "x-fir-remove-parent" [⟨"load", .ok⟩],
          action .append "x-fir-append:row" [⟨"save", .ok⟩],
          action .remove "x-fir-remove" [⟨"save", .ok⟩],
          action .prepend "x-fir-prepend:row" [⟨"save", .done⟩, ⟨"load", .ok⟩]] =
      .error (.conflict "x-fir-remove-parent" "x-fir-prepend:row" (.ofList [⟨"load", .ok⟩])) := by
  decide +kernel

end EventBindings
