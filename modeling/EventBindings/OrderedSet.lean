namespace EventBindings

/-!
Finite sets kept as strictly ascending lists. A set has one list, so sets with
the same members are equal and every listing of a set has the same order.
-/

/-- A strict order in which any two members can be compared. -/
class StrictTotalOrder (α : Type) [LT α] : Prop where
  lt_irrefl : ∀ a : α, ¬ a < a
  lt_trans : ∀ {a b c : α}, a < b → b < c → a < c
  eq_of_not_lt : ∀ {a b : α}, ¬ a < b → ¬ b < a → a = b

/-- Strings in the order of their code points. -/
instance : StrictTotalOrder String where
  lt_irrefl := String.lt_irrefl
  lt_trans := String.lt_trans
  eq_of_not_lt notBelow notAbove :=
    String.le_antisymm (String.not_lt.mp notAbove) (String.not_lt.mp notBelow)

/-- A finite set: its members in strictly ascending order. -/
structure OrderedSet (α : Type) [LT α] where
  toList : List α := []
  ascending : toList.Pairwise (· < ·) := by exact List.Pairwise.nil

namespace OrderedSet

variable {α : Type} [LT α]

instance : Membership α (OrderedSet α) := ⟨fun set a => a ∈ set.toList⟩

theorem mem_iff {a : α} {set : OrderedSet α} : a ∈ set ↔ a ∈ set.toList := Iff.rfl

def empty : OrderedSet α := {}

instance : EmptyCollection (OrderedSet α) := ⟨empty⟩

instance : Inhabited (OrderedSet α) := ⟨empty⟩

instance [DecidableEq α] : DecidableEq (OrderedSet α) := fun left right =>
  decidable_of_iff (left.toList = right.toList) (by
    cases left
    cases right
    simp)

instance [DecidableEq α] (a : α) (set : OrderedSet α) : Decidable (a ∈ set) :=
  inferInstanceAs (Decidable (a ∈ set.toList))

def inter [DecidableEq α] (left right : OrderedSet α) : OrderedSet α where
  toList := left.toList.filter (fun a => a ∈ right.toList)
  ascending := left.ascending.filter _

@[simp] theorem mem_inter [DecidableEq α] {a : α} {left right : OrderedSet α} :
    a ∈ left.inter right ↔ a ∈ left ∧ a ∈ right := by
  simp [mem_iff, inter]

def isDisjoint [DecidableEq α] (left right : OrderedSet α) : Bool :=
  (left.inter right).toList.isEmpty

/-- Puts a member in its place in an ascending list. -/
def place [DecidableLT α] (a : α) : List α → List α
  | [] => [a]
  | b :: rest =>
      if a < b then a :: b :: rest
      else if b < a then b :: place a rest
      else b :: rest

theorem mem_of_mem_place [DecidableLT α] {a c : α} {members : List α}
    (member : c ∈ place a members) : c = a ∨ c ∈ members := by
  induction members with
  | nil => simpa [place] using member
  | cons b rest ih =>
      simp only [place] at member
      split at member
      · simpa using member
      · split at member
        · rcases List.mem_cons.mp member with same | inRest
          · exact .inr (by simp [same])
          · rcases ih inRest with same | old
            · exact .inl same
            · exact .inr (List.mem_cons_of_mem b old)
        · exact .inr member

variable [DecidableLT α] [StrictTotalOrder α]

theorem pairwise_place (a : α) {members : List α} (ascending : members.Pairwise (· < ·)) :
    (place a members).Pairwise (· < ·) := by
  induction members with
  | nil => simp [place]
  | cons b rest ih =>
      obtain ⟨least, restAscending⟩ := List.pairwise_cons.mp ascending
      simp only [place]
      split
      · rename_i below
        refine List.pairwise_cons.mpr ⟨fun c member => ?_, ascending⟩
        rcases List.mem_cons.mp member with same | inRest
        · exact same ▸ below
        · exact StrictTotalOrder.lt_trans below (least c inRest)
      · split
        · rename_i above
          refine List.pairwise_cons.mpr ⟨fun c member => ?_, ih restAscending⟩
          rcases mem_of_mem_place member with same | old
          · exact same ▸ above
          · exact least c old
        · exact ascending

theorem mem_place {a c : α} {members : List α} :
    c ∈ place a members ↔ c = a ∨ c ∈ members := by
  refine ⟨mem_of_mem_place, ?_⟩
  induction members with
  | nil => simp [place]
  | cons b rest ih =>
      intro member
      simp only [place]
      split
      · simpa using member
      · rename_i notBelow
        split
        · rcases member with same | inList
          · exact List.mem_cons_of_mem b (ih (.inl same))
          · rcases List.mem_cons.mp inList with same | inRest
            · simp [same]
            · exact List.mem_cons_of_mem b (ih (.inr inRest))
        · rename_i notAbove
          have same : a = b := StrictTotalOrder.eq_of_not_lt notBelow notAbove
          rcases member with equal | inList
          · simp [equal, same]
          · exact inList

def insert (a : α) (set : OrderedSet α) : OrderedSet α :=
  ⟨place a set.toList, pairwise_place a set.ascending⟩

def insertAll (members : List α) (set : OrderedSet α) : OrderedSet α :=
  members.foldr insert set

def ofList (members : List α) : OrderedSet α :=
  insertAll members empty

@[simp] theorem mem_insert {a c : α} {set : OrderedSet α} :
    c ∈ set.insert a ↔ c = a ∨ c ∈ set :=
  mem_place

@[simp] theorem mem_insertAll {c : α} {members : List α} {set : OrderedSet α} :
    c ∈ set.insertAll members ↔ c ∈ members ∨ c ∈ set := by
  induction members with
  | nil => simp [insertAll]
  | cons a rest ih =>
      show c ∈ (set.insertAll rest).insert a ↔ _
      rw [mem_insert, ih, List.mem_cons, or_assoc]

@[simp] theorem mem_ofList {c : α} {members : List α} : c ∈ ofList members ↔ c ∈ members := by
  rw [ofList, mem_insertAll]
  exact or_iff_left (by simp [mem_iff, empty])

omit [DecidableLT α] in
private theorem eq_of_mem_iff_of_pairwise {left right : List α}
    (leftAscending : left.Pairwise (· < ·)) (rightAscending : right.Pairwise (· < ·))
    (same : ∀ c, c ∈ left ↔ c ∈ right) : left = right := by
  induction left generalizing right with
  | nil =>
      cases right with
      | nil => rfl
      | cons b right => exact absurd ((same b).mpr (by simp)) (by simp)
  | cons a left ih =>
      cases right with
      | nil => exact absurd ((same a).mp (by simp)) (by simp)
      | cons b right =>
          obtain ⟨leastLeft, leftRest⟩ := List.pairwise_cons.mp leftAscending
          obtain ⟨leastRight, rightRest⟩ := List.pairwise_cons.mp rightAscending
          have heads : a = b := by
            rcases List.mem_cons.mp ((same a).mp (by simp)) with equal | inRight
            · exact equal
            · rcases List.mem_cons.mp ((same b).mpr (by simp)) with equal | inLeft
              · exact equal.symm
              · exact absurd (StrictTotalOrder.lt_trans (leastLeft b inLeft) (leastRight a inRight))
                  (StrictTotalOrder.lt_irrefl a)
          subst heads
          have tails : left = right := ih leftRest rightRest fun c => by
            constructor
            · intro inLeft
              rcases List.mem_cons.mp ((same c).mp (List.mem_cons_of_mem a inLeft)) with
                equal | inRight
              · exact absurd (equal ▸ leastLeft c inLeft) (StrictTotalOrder.lt_irrefl a)
              · exact inRight
            · intro inRight
              rcases List.mem_cons.mp ((same c).mpr (List.mem_cons_of_mem a inRight)) with
                equal | inLeft
              · exact absurd (equal ▸ leastRight c inRight) (StrictTotalOrder.lt_irrefl a)
              · exact inLeft
          rw [tails]

omit [DecidableLT α] in
theorem eq_of_mem_iff {left right : OrderedSet α} (same : ∀ c, c ∈ left ↔ c ∈ right) :
    left = right := by
  have lists := eq_of_mem_iff_of_pairwise left.ascending right.ascending same
  cases left
  cases right
  simp_all

end OrderedSet

end EventBindings
