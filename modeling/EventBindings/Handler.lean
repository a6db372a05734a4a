import EventBindings.Text.Start

namespace EventBindings

/-!
The handlers of action attributes: their names, the order in which they emit,
and which of them work against each other on one event.
-/

inductive Handler where
  | refresh
  | remove
  | removeParent
  | append
  | prepend
  | reset
  | toggleDisabled
  | toggleClass
  | dispatch
  /-- Runs an action of the caller's map. -/
  | run
  | redirect
  /-- Runs an action of the caller's map, or the name itself. -/
  | script
  deriving DecidableEq, Repr

namespace Handler

def all : List Handler :=
  [.refresh, .remove, .removeParent, .append, .prepend, .reset, .toggleDisabled, .toggleClass,
    .dispatch, .run, .redirect, .script]

/-- The name in the key of an action attribute. -/
def name : Handler → String
  | .refresh => "refresh"
  | .remove => "remove"
  | .removeParent => "remove-parent"
  | .append => "append"
  | .prepend => "prepend"
  | .reset => "reset"
  | .toggleDisabled => "toggle-disabled"
  | .toggleClass => "toggleClass"
  | .dispatch => "dispatch"
  | .run => "runjs"
  | .redirect => "redirect"
  | .script => "js"

def ofName? (text : String) : Option Handler :=
  all.find? (fun handler => handler.name == text)

/-- The place among the handlers of an element. Lower ones emit first. -/
def precedence : Handler → Nat
  | .refresh => 20
  | .remove => 30
  | .run => 32
  | .toggleClass => 33
  | .dispatch => 33
  | .toggleDisabled => 34
  | .reset => 35
  | .removeParent => 40
  | .append => 50
  | .prepend => 60
  | .redirect => 90
  | .script => 100

/-- By precedence first, then by name. -/
def RanksBefore (first second : Handler) : Prop :=
  first.precedence < second.precedence ∨
    first.precedence = second.precedence ∧ first.name < second.name

instance (first second : Handler) : Decidable (first.RanksBefore second) :=
  inferInstanceAs (Decidable (first.precedence < second.precedence ∨
    first.precedence = second.precedence ∧ first.name < second.name))

/-- Whether the handler can share an event with any other. -/
def coexists : Handler → Bool
  | .reset => true
  | .toggleDisabled => true
  | .toggleClass => true
  | .run => true
  | .script => true
  | _ => false

/-- The handlers with which this one cannot share an event. -/
def exclusiveWith : Handler → List Handler
  | .refresh => [.remove, .removeParent]
  | .remove => [.refresh, .removeParent, .append, .prepend]
  | .removeParent => [.refresh, .remove, .append, .prepend]
  | .append => [.remove, .removeParent, .prepend]
  | .prepend => [.remove, .removeParent, .append]
  | _ => []

/-- The text that begins an action name in which a script is named. -/
def scriptNameStart : String := "action-"

/-- The script in an action name such as `action-save`. -/
def scriptName? (actionName : String) : Option String :=
  (Text.afterStart? scriptNameStart actionName).filter (fun script => script != "")

theorem mem_all (handler : Handler) : handler ∈ all := by
  cases handler <;> decide

@[simp] theorem ofName?_name (handler : Handler) : ofName? handler.name = some handler := by
  cases handler <;> decide

theorem name_of_ofName? {text : String} {handler : Handler}
    (found : ofName? text = some handler) : handler.name = text := by
  have matched := List.find?_some found
  exact beq_iff_eq.mp matched

end Handler

end EventBindings
