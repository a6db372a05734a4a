import EventBindings.Token

namespace EventBindings

/-!
Bindings as they are written: which events, which template, which action.
-/

/-- An event as written: a name, perhaps its outcome, and modifiers. -/
structure EventClause where
  name : String
  state : Option EventState := none
  modifiers : List String := []
  deriving DecidableEq, Repr

def EventClause.addModifier (clause : EventClause) (modifier : String) : EventClause :=
  { clause with modifiers := clause.modifiers ++ [modifier] }

/-- The action of a binding as written. -/
inductive ActionRef where
  /-- A name that the caller's action map may replace. -/
  | named (name : String)
  /-- A call of a built-in action, which no map replaces. -/
  | call (name : String)
  deriving DecidableEq, Repr

/-- Events that share a template and an action. -/
structure Binding where
  events : List EventClause
  template : Option String := none
  action : Option ActionRef := none
  deriving DecidableEq, Repr

/-- The bindings between two semicolons, in order. -/
abbrev Expression := List Binding

end EventBindings
