import EventBindings.OrderedSet

namespace EventBindings

/-!
Events of the server and their outcomes. Events are ordered by name, and
events of one name by outcome.
-/

/-- The outcome of a server event that a binding listens to. -/
inductive EventState where
  | ok
  | error
  | pending
  | done
  deriving DecidableEq, Repr

namespace EventState

def all : List EventState := [.ok, .error, .pending, .done]

/-- The name of the outcome, as written after a colon. -/
def name : EventState → String
  | .ok => "ok"
  | .error => "error"
  | .pending => "pending"
  | .done => "done"

def ofName? (text : String) : Option EventState :=
  all.find? (fun state => state.name == text)

def rank : EventState → Nat
  | .ok => 0
  | .error => 1
  | .pending => 2
  | .done => 3

theorem eq_of_rank_eq {left right : EventState} (same : left.rank = right.rank) :
    left = right := by
  cases left <;> cases right <;> simp_all [rank]

@[simp] theorem ofName?_name (state : EventState) : ofName? state.name = some state := by
  cases state <;> decide

theorem name_of_ofName? {text : String} {state : EventState}
    (found : ofName? text = some state) : state.name = text := by
  have matched := List.find?_some found
  exact beq_iff_eq.mp matched

end EventState

structure Event where
  name : String
  state : EventState
  deriving DecidableEq, Repr

namespace Event

/-- The written form of the event: its name, a colon, its outcome. -/
def text (event : Event) : String :=
  event.name ++ ":" ++ event.state.name

/-- By name first, then by outcome. -/
def precedes (left right : Event) : Prop :=
  left.name < right.name ∨ left.name = right.name ∧ left.state.rank < right.state.rank

instance : LT Event := ⟨precedes⟩

theorem lt_iff {left right : Event} : left < right ↔
    left.name < right.name ∨ left.name = right.name ∧ left.state.rank < right.state.rank :=
  Iff.rfl

instance (left right : Event) : Decidable (left < right) :=
  inferInstanceAs (Decidable (left.name < right.name ∨
    left.name = right.name ∧ left.state.rank < right.state.rank))

theorem lt_trans {first second third : Event} (lower : first < second) (upper : second < third) :
    first < third := by
  rw [lt_iff] at *
  rcases lower with below | ⟨same, below⟩ <;> rcases upper with above | ⟨equal, above⟩
  · exact .inl (String.lt_trans below above)
  · exact .inl (equal ▸ below)
  · exact .inl (same ▸ above)
  · exact .inr ⟨same.trans equal, Nat.lt_trans below above⟩

theorem lt_irrefl (event : Event) : ¬ event < event := by
  rw [lt_iff]
  intro either
  rcases either with below | ⟨_, below⟩
  · exact String.lt_irrefl _ below
  · exact Nat.lt_irrefl _ below

theorem eq_of_not_lt {left right : Event} (notBelow : ¬ left < right) (notAbove : ¬ right < left) :
    left = right := by
  simp only [lt_iff, not_or, not_and, Nat.not_lt] at notBelow notAbove
  have name : left.name = right.name :=
    StrictTotalOrder.eq_of_not_lt notBelow.1 notAbove.1
  have state : left.state = right.state :=
    EventState.eq_of_rank_eq (Nat.le_antisymm (notAbove.2 name.symm) (notBelow.2 name))
  cases left
  cases right
  simp_all

instance : StrictTotalOrder Event where
  lt_irrefl := lt_irrefl
  lt_trans := lt_trans
  eq_of_not_lt := eq_of_not_lt

end Event

end EventBindings
