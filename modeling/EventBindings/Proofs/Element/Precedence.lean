import EventBindings.Element
import EventBindings.Proofs.Fallible
import EventBindings.Proofs.StableOrder

namespace EventBindings

/-!
What comes first in a list whose members stand in order, and in which order the
actions of an element stand.
-/

section Least

variable {α β : Type} {before : α → α → Prop} {items : List α}

/-- Of everything for which a property holds, the item comes first. -/
structure Least (before : α → α → Prop) (property : α → Prop) (item : α) : Prop where
  holds : property item
  first : ∀ other, property other → other = item ∨ before item other

/-- Sorting keeps the order of members that are equal to it. -/
theorem pairwise_mergeSort {le : α → α → Bool}
    (trans : ∀ a b c, le a b = true → le b c = true → le a c = true)
    (total : ∀ a b, (le a b || le b a) = true) (ordered : items.Pairwise before) :
    (items.mergeSort le).Pairwise fun a b => le a b = true ∧ (le b a = true → before a b) := by
  induction items with
  | nil => simp
  | cons item items ih =>
      rw [List.pairwise_cons] at ordered
      obtain ⟨smaller, others, sorted, without, below⟩ := List.mergeSort_cons trans total item items
      have whole := List.pairwise_mergeSort trans total (item :: items)
      rw [sorted, List.pairwise_append, List.pairwise_cons] at whole
      have rest := ih ordered.2
      rw [without, List.pairwise_append] at rest
      rw [sorted, List.pairwise_append, List.pairwise_cons]
      refine ⟨rest.1, ⟨?behind, rest.2.1⟩, ?across⟩
      case behind =>
        intro other member
        have inSorted : other ∈ items.mergeSort le := by
          rw [without]
          exact List.mem_append_right _ member
        exact ⟨whole.2.1.1 other member,
          fun _ => ordered.1 other (List.mem_mergeSort.mp inSorted)⟩
      case across =>
        intro early inSmaller late member
        rcases List.mem_cons.mp member with rfl | inOthers
        · have strict : le late early = false := by simpa using below early inSmaller
          have either := total late early
          simp only [strict, Bool.false_or] at either
          exact ⟨either, fun contrary => by rw [strict] at contrary; cases contrary⟩
        · exact rest.2.2 early inSmaller late inOthers

theorem find?_first {property : α → Bool} (ordered : items.Pairwise before) {item : α}
    (found : items.find? property = some item) :
    ∀ other ∈ items, property other = true → other = item ∨ before item other := by
  induction items with
  | nil => cases found
  | cons head items ih =>
      rw [List.pairwise_cons] at ordered
      intro other member holds
      rw [List.find?_cons] at found
      cases headHolds : property head with
      | true =>
          simp only [headHolds, Option.some.injEq] at found
          subst found
          rcases List.mem_cons.mp member with same | inItems
          · exact .inl same
          · exact .inr (ordered.1 other inItems)
      | false =>
          simp only [headHolds] at found
          rcases List.mem_cons.mp member with rfl | inItems
          · rw [headHolds] at holds
            cases holds
          · exact ih ordered.2 found other inItems holds

/-- A list of computations in order fails as the first of them that does. -/
theorem least_of_mapM {ε : Type} {function : α → Except ε β} (ordered : items.Pairwise before)
    {fault : ε} (failed : items.mapM function = .error fault) :
    ∃ item, Least before (fun item => item ∈ items ∧ ∃ fault, function item = .error fault) item ∧
      function item = .error fault := by
  obtain ⟨early, item, late, rfl, succeed, itemFailed⟩ := mapM_eq_error_iff.mp failed
  refine ⟨item, ⟨⟨by simp, fault, itemFailed⟩, ?_⟩, itemFailed⟩
  intro other given
  obtain ⟨member, otherFault, otherFailed⟩ := given
  rcases List.mem_append.mp member with inEarly | inLate
  · obtain ⟨result, succeeded⟩ := succeed other inEarly
    rw [otherFailed] at succeeded
    cases succeeded
  · have behind := List.pairwise_cons.mp (List.pairwise_append.mp ordered).2.1
    rcases List.mem_cons.mp inLate with same | inRest
    · exact .inl same
    · exact .inr (behind.1 other inRest)

theorem pairwise_zipIdx (items : List α) :
    items.zipIdx.Pairwise fun first second => first.2 < second.2 := by
  have places : (items.zipIdx.map Prod.snd).Pairwise (· < ·) := by
    rw [List.zipIdx_map_snd]
    exact List.pairwise_lt_range' 1
  exact List.pairwise_map.mp places

theorem firstPair?_map {related : β → β → Bool} (function : α → β) :
    firstPair? related (items.map function) =
      (firstPair? (fun a b => related (function a) (function b)) items).map
        (Prod.map function function) := by
  induction items with
  | nil => rfl
  | cons item items ih =>
      simp only [List.map_cons, firstPair?, List.find?_map, Function.comp_def]
      cases items.find? fun other => related (function item) (function other) with
      | none => exact ih
      | some => rfl

/-- Two members that are related, in the order in which they stand. -/
def RelatedPair (before : α → α → Prop) (related : α → α → Bool) (items : List α)
    (pair : α × α) : Prop :=
  pair.1 ∈ items ∧ pair.2 ∈ items ∧ before pair.1 pair.2 ∧ related pair.1 pair.2 = true

variable {related : α → α → Bool} (asymmetric : ∀ a b, before a b → ¬ before b a)
include asymmetric

theorem relatedPair_cons_iff {head : α} (ordered : (head :: items).Pairwise before)
    {pair : α × α} :
    RelatedPair before related (head :: items) pair ↔
      (pair.1 = head ∧ pair.2 ∈ items ∧ related head pair.2 = true) ∨
        RelatedPair before related items pair := by
  obtain ⟨first, second⟩ := pair
  rw [List.pairwise_cons] at ordered
  dsimp only [RelatedPair]
  constructor
  · intro given
    obtain ⟨firstMember, secondMember, inOrder, holds⟩ := given
    have secondBehind : second ∈ items := by
      rcases List.mem_cons.mp secondMember with rfl | inItems
      · rcases List.mem_cons.mp firstMember with rfl | firstBehind
        · exact absurd inOrder (asymmetric _ _ inOrder)
        · exact absurd inOrder (asymmetric _ _ (ordered.1 first firstBehind))
      · exact inItems
    rcases List.mem_cons.mp firstMember with rfl | firstBehind
    · exact .inl ⟨rfl, secondBehind, holds⟩
    · exact .inr ⟨firstBehind, secondBehind, inOrder, holds⟩
  · intro either
    rcases either with ⟨rfl, secondBehind, holds⟩ | ⟨firstBehind, secondBehind, inOrder, holds⟩
    · exact ⟨List.mem_cons_self, List.mem_cons_of_mem _ secondBehind,
        ordered.1 second secondBehind, holds⟩
    · exact ⟨List.mem_cons_of_mem _ firstBehind, List.mem_cons_of_mem _ secondBehind, inOrder,
        holds⟩

theorem not_related_of_firstPair? (ordered : items.Pairwise before)
    (absent : firstPair? related items = none) (pair : α × α) :
    ¬ RelatedPair before related items pair := by
  induction items with
  | nil => exact fun contrary => by cases contrary.1
  | cons head items ih =>
      rw [relatedPair_cons_iff asymmetric ordered]
      rw [firstPair?] at absent
      cases partner : items.find? (related head) with
      | some second => simp [partner] at absent
      | none =>
          simp only [partner] at absent
          intro either
          rcases either with ⟨_, member, holds⟩ | behind
          · exact List.find?_eq_none.mp partner pair.2 member holds
          · exact ih ordered.of_cons absent behind

/-- The first pair comes first by its first member, and then by its second. -/
theorem least_of_firstPair? (ordered : items.Pairwise before) {pair : α × α}
    (found : firstPair? related items = some pair) :
    Least (Prod.Lex before before) (RelatedPair before related items) pair := by
  induction items with
  | nil => cases found
  | cons head items ih =>
      have parts (other : α × α) : RelatedPair before related (head :: items) other ↔ _ :=
        relatedPair_cons_iff asymmetric ordered
      rw [firstPair?] at found
      cases partner : items.find? (related head) with
      | some second =>
          simp only [partner, Option.some.injEq] at found
          subst found
          constructor
          case holds =>
            exact (parts _).mpr (.inl ⟨rfl, List.mem_of_find?_eq_some partner,
              List.find?_some partner⟩)
          case first =>
            intro given holds
            obtain ⟨otherFirst, otherSecond⟩ := given
            rcases (parts _).mp holds with ⟨rfl, member, related⟩ | behind
            · rcases find?_first ordered.of_cons partner otherSecond member related with same | later
              · exact .inl (by rw [same])
              · exact .inr (.right _ later)
            · exact .inr (.left _ _ ((List.pairwise_cons.mp ordered).1 otherFirst behind.1))
      | none =>
          simp only [partner] at found
          have rest := ih ordered.of_cons found
          constructor
          case holds => exact (parts _).mpr (.inr rest.holds)
          case first =>
            intro other holds
            rcases (parts _).mp holds with ⟨_, member, related⟩ | behind
            · exact absurd related (List.find?_eq_none.mp partner other.2 member)
            · exact rest.first other behind

end Least

/-- An action, and the place of its attribute in the document. -/
structure PlacedAction where
  action : CollectedAction
  place : Nat

/-- By precedence first, then by place. -/
def PlacedAction.Before (first second : PlacedAction) : Prop :=
  first.action.handler.precedence < second.action.handler.precedence ∨
    first.action.handler.precedence = second.action.handler.precedence ∧
      first.place < second.place

theorem PlacedAction.before_asymmetric (first second : PlacedAction)
    (before : first.Before second) : ¬ second.Before first := by
  unfold Before at before ⊢
  omega

def placedActions (contributions : List Contribution) : List PlacedAction :=
  contributions.zipIdx.filterMap fun (contribution, place) =>
    contribution.collected?.map (⟨·, place⟩)

theorem mem_placedActions_iff {contributions : List Contribution} {placed : PlacedAction} :
    placed ∈ placedActions contributions ↔
      ∃ contribution, contributions[placed.place]? = some contribution ∧
        contribution.collected? = some placed.action := by
  simp only [placedActions, List.mem_filterMap, Prod.exists, List.mem_zipIdx_iff_getElem?,
    Option.map_eq_some_iff]
  constructor
  · intro given
    obtain ⟨contribution, place, found, action, collected, rfl⟩ := given
    exact ⟨contribution, found, collected⟩
  · intro given
    obtain ⟨contribution, found, collected⟩ := given
    exact ⟨contribution, placed.place, found, placed.action, collected, rfl⟩

theorem map_action_placedActions (contributions : List Contribution) :
    (placedActions contributions).map PlacedAction.action =
      contributions.filterMap Contribution.collected? := by
  have forgotten := congrArg (List.filterMap Contribution.collected?)
    (List.zipIdx_map_fst 0 contributions)
  rw [List.filterMap_map] at forgotten
  rw [placedActions, List.map_filterMap, ← forgotten]
  simp [Function.comp_def]

theorem pairwise_placedActions (contributions : List Contribution) :
    (placedActions contributions).Pairwise fun first second => first.place < second.place := by
  rw [placedActions, List.pairwise_filterMap]
  apply (pairwise_zipIdx contributions).imp
  intro earlier later below first fromEarlier second fromLater
  obtain ⟨_, _, rfl⟩ := Option.map_eq_some_iff.mp fromEarlier
  obtain ⟨_, _, rfl⟩ := Option.map_eq_some_iff.mp fromLater
  exact below

/-- The actions in the order in which they emit. -/
def sortedActions (contributions : List Contribution) : List PlacedAction :=
  (placedActions contributions).mergeSort fun first second =>
    first.action.handler.precedence ≤ second.action.handler.precedence

theorem map_action_sortedActions (contributions : List Contribution) :
    (sortedActions contributions).map PlacedAction.action =
      byPrecedence (contributions.filterMap Contribution.collected?) := by
  rw [byPrecedence, ← map_action_placedActions]
  exact List.map_mergeSort fun _ _ _ _ => rfl

theorem pairwise_sortedActions (contributions : List Contribution) :
    (sortedActions contributions).Pairwise PlacedAction.Before := by
  have sorted : (sortedActions contributions).Pairwise fun first second =>
      decide (first.action.handler.precedence ≤ second.action.handler.precedence) = true ∧
        (decide (second.action.handler.precedence ≤ first.action.handler.precedence) = true →
          first.place < second.place) :=
    pairwise_mergeSort (rank_le_trans fun placed : PlacedAction => placed.action.handler.precedence)
      (rank_le_total _) (pairwise_placedActions contributions)
  apply sorted.imp
  intro first second given
  obtain ⟨notAbove, inOrder⟩ := given
  rw [decide_eq_true_eq] at notAbove inOrder
  unfold PlacedAction.Before
  omega

end EventBindings
