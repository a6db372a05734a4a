import EventBindings.ActionAttribute
import EventBindings.ActionError
import EventBindings.Compile

namespace EventBindings

/-!
Conflicts between the action attributes of one element. Two actions conflict
when one event would make both work on the same node.
-/

/-- An action attribute with its handler and the events that trigger it. -/
structure CollectedAction where
  handler : Handler
  attr : ActionAttribute
  events : OrderedSet Event
  deriving DecidableEq

namespace CollectedAction

def collect (handler : Handler) (attr : ActionAttribute) :
    Except GrammarError CollectedAction := do
  let events ← declaredEvents attr.value
  return ⟨handler, attr, events⟩

def sharedEvents (first second : CollectedAction) : OrderedSet Event :=
  first.events.inter second.events

def conflicts (first second : CollectedAction) : Bool :=
  !(first.handler.coexists || second.handler.coexists) &&
    !first.events.isDisjoint second.events &&
    (second.handler ∈ first.handler.exclusiveWith || first.handler ∈ second.handler.exclusiveWith)

def conflictError (first second : CollectedAction) : ActionError :=
  .conflict first.attr.key second.attr.key (first.sharedEvents second)

end CollectedAction

/-- The first two members of a list, the earlier one first, that are
related. -/
def firstPair? {α : Type} (related : α → α → Bool) : List α → Option (α × α)
  | [] => none
  | a :: rest =>
      match rest.find? (related a) with
      | some b => some (a, b)
      | none => firstPair? related rest

/-- Accepts actions of which no two conflict. -/
def checkConflicts (actions : List CollectedAction) : Except ActionError Unit :=
  match firstPair? CollectedAction.conflicts actions with
  | some (first, second) => .error (first.conflictError second)
  | none => .ok ()

end EventBindings
