namespace EventBindings

/-!
Lists in ascending order of a rank, the members of equal rank in the order in
which they were given. There is one such order of a list, and a part of the list
is put into it as it stands in the order of the whole.
-/

variable {α : Type} {rank : α → Nat} {items sorted : List α}

structure StablySorted (rank : α → Nat) (items sorted : List α) : Prop where
  ascending : sorted.Pairwise fun first second => rank first ≤ rank second
  kept : ∀ level, sorted.filter (fun item => rank item = level) =
    items.filter (fun item => rank item = level)

theorem rank_head_le {first second : α} {left right : List α}
    (ascending : (first :: left).Pairwise fun a b => rank a ≤ rank b)
    (same : (first :: left).filter (fun item => rank item = rank second) =
      (second :: right).filter (fun item => rank item = rank second)) :
    rank first ≤ rank second := by
  have member : second ∈ (first :: left).filter (fun item => rank item = rank second) := by
    rw [same]
    simp
  rcases List.mem_cons.mp (List.mem_filter.mp member).1 with equal | behind
  · exact Nat.le_of_eq (congrArg rank equal.symm)
  · exact (List.pairwise_cons.mp ascending).1 second behind

/-- Ascending lists are equal if they agree in the members of every rank. -/
theorem eq_of_filter_rank_eq {left right : List α}
    (leftAscending : left.Pairwise fun a b => rank a ≤ rank b)
    (rightAscending : right.Pairwise fun a b => rank a ≤ rank b)
    (same : ∀ level, left.filter (fun item => rank item = level) =
      right.filter (fun item => rank item = level)) : left = right := by
  induction left generalizing right with
  | nil =>
      cases right with
      | nil => rfl
      | cons second right => simpa using same (rank second)
  | cons first left ih =>
      cases right with
      | nil => simpa using same (rank first)
      | cons second right =>
          have ranks : rank first = rank second :=
            Nat.le_antisymm (rank_head_le leftAscending (same (rank second)))
              (rank_head_le rightAscending (same (rank first)).symm)
          have heads : first = second := by
            have firsts := same (rank first)
            simp only [List.filter_cons, ranks, decide_true, if_true, List.cons.injEq] at firsts
            exact firsts.1
          subst heads
          have rest : left = right := ih leftAscending.of_cons rightAscending.of_cons fun level => by
            have whole := same level
            simp only [List.filter_cons] at whole
            split at whole
            · exact (List.cons.inj whole).2
            · exact whole
          rw [rest]

theorem StablySorted.eq {others otherSorted : List α} (stable : StablySorted rank items sorted)
    (otherStable : StablySorted rank others otherSorted)
    (same : ∀ level, items.filter (fun item => rank item = level) =
      others.filter (fun item => rank item = level)) : sorted = otherSorted :=
  eq_of_filter_rank_eq stable.ascending otherStable.ascending fun level => by
    rw [stable.kept, otherStable.kept, same]

/-- The list in ascending order of the rank. -/
def sortedBy (rank : α → Nat) (items : List α) : List α :=
  items.mergeSort fun first second => rank first ≤ rank second

theorem rank_le_trans (rank : α → Nat) (a b c : α) (first : decide (rank a ≤ rank b) = true)
    (second : decide (rank b ≤ rank c) = true) : decide (rank a ≤ rank c) = true := by
  simp only [decide_eq_true_eq] at *
  exact Nat.le_trans first second

theorem rank_le_total (rank : α → Nat) (a b : α) :
    (decide (rank a ≤ rank b) || decide (rank b ≤ rank a)) = true := by
  simpa using Nat.le_total _ _

theorem sortedBy_ascending (rank : α → Nat) (items : List α) :
    (sortedBy rank items).Pairwise fun first second => rank first ≤ rank second := by
  have sorted := List.pairwise_mergeSort (rank_le_trans rank) (rank_le_total rank) items
  exact sorted.imp of_decide_eq_true

theorem sortedBy_perm (rank : α → Nat) (items : List α) : (sortedBy rank items).Perm items :=
  List.mergeSort_perm items _

theorem stablySorted_sortedBy (rank : α → Nat) (items : List α) :
    StablySorted rank items (sortedBy rank items) where
  ascending := sortedBy_ascending rank items
  kept := by
    intro level
    have inOrder : (items.filter (fun item => rank item = level)).Pairwise fun first second =>
        decide (rank first ≤ rank second) = true := by
      rw [List.pairwise_filter]
      apply List.pairwise_of_forall
      intro first second firstLevel secondLevel
      simp_all
    have within := List.sublist_mergeSort (rank_le_trans rank) (rank_le_total rank) inOrder
      List.filter_sublist
    have filtered := within.filter (fun item => rank item = level)
    simp only [List.filter_filter, Bool.and_self] at filtered
    have lengths := ((sortedBy_perm rank items).filter (fun item => rank item = level)).length_eq
    exact (filtered.eq_of_length lengths.symm).symm

theorem filter_append_of_forall (property : α → Bool) {left right : List α}
    (holds : ∀ item ∈ left, property item = true)
    (fails : ∀ item ∈ right, property item = false) :
    (left ++ right).filter property = left ∧
      (left ++ right).filter (fun item => !property item) = right := by
  have leftOnly : left.filter (fun item => !property item) = [] :=
    List.filter_eq_nil_iff.mpr (by simpa using holds)
  have rightOnly : right.filter property = [] := List.filter_eq_nil_iff.mpr (by simpa using fails)
  have rightKept : right.filter (fun item => !property item) = right :=
    List.filter_eq_self.mpr (by simpa using fails)
  simp only [List.filter_append, List.filter_eq_self.mpr holds, leftOnly, rightOnly, rightKept,
    List.append_nil, List.nil_append, and_self]

/-- A further member is put behind those of smaller rank and before the others. -/
theorem sortedBy_cons (rank : α → Nat) (item : α) (items : List α) :
    let smaller := (sortedBy rank items).filter fun other => rank other < rank item
    let others := (sortedBy rank items).filter fun other => !decide (rank other < rank item)
    sortedBy rank (item :: items) = smaller ++ item :: others ∧
      sortedBy rank items = smaller ++ others := by
  obtain ⟨smaller, others, sorted, without, below⟩ :=
    List.mergeSort_cons (rank_le_trans rank) (rank_le_total rank) item items
  have ascending := sortedBy_ascending rank (item :: items)
  rw [sortedBy, sorted, List.pairwise_append, List.pairwise_cons] at ascending
  have strictlyBelow : ∀ other ∈ smaller, decide (rank other < rank item) = true := by
    simpa using below
  have notBelow : ∀ other ∈ others, decide (rank other < rank item) = false := by
    simpa using ascending.2.1.1
  have halves := filter_append_of_forall _ strictlyBelow notBelow
  change sortedBy rank items = _ at without
  dsimp only
  rw [without, halves.1, halves.2]
  exact ⟨sorted, rfl⟩

/-- What is sorted from a part of a list stands in the same order in what is
sorted from the whole. -/
theorem sublist_sortedBy (rank : α → Nat) {part : List α} (within : part.Sublist items) :
    (sortedBy rank part).Sublist (sortedBy rank items) := by
  induction within with
  | slnil => exact List.Sublist.refl _
  | @cons part items item _ ih =>
      obtain ⟨sorted, without⟩ := sortedBy_cons rank item items
      rw [without] at ih
      rw [sorted]
      exact ih.trans ((List.sublist_cons_self item _).append_left _)
  | @cons_cons part items item _ ih =>
      rw [(sortedBy_cons rank item items).1, (sortedBy_cons rank item part).1]
      exact (ih.filter _).append ((ih.filter _).cons_cons item)

end EventBindings
