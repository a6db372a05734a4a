import EventBindings.ActionMap
import EventBindings.Binding
import EventBindings.Binding.Resolved

namespace EventBindings

/-!
Filling the defaults of a binding. Without settings of its own a resolver gives
an event without an outcome the outcome `ok`, and a binding without an action
the action that replaces the element.
-/

/-- The action of a binding that names none. -/
def defaultAction : String := callText "replace"

structure Resolver where
  /-- Replaces the named actions that it knows. -/
  actions : ActionMap := ∅
  /-- Added to the modifiers of every binding. -/
  modifiers : OrderedSet String := ∅
  /-- Used in place of every binding's action. -/
  action : Option String := none
  /-- Used in place of every binding's template. -/
  template : Option String := none
  /-- An event without an outcome stands for one event with each of these. -/
  implicitStates : List EventState := [.ok]

namespace Resolver

def withModifiers (resolver : Resolver) (modifiers : List String) : Resolver :=
  { resolver with modifiers := resolver.modifiers.insertAll modifiers }

def withAction (resolver : Resolver) (action : String) : Resolver :=
  { resolver with action := some action }

/-- Sets the template of every binding. No template changes nothing. -/
def withTemplate (resolver : Resolver) (template : Option String) : Resolver :=
  { resolver with template := template <|> resolver.template }

def withImplicitStates (resolver : Resolver) (states : List EventState) : Resolver :=
  { resolver with implicitStates := states }

def clauseEvents (resolver : Resolver) (clause : EventClause) : List Event :=
  match clause.state with
  | some state => [⟨clause.name, state⟩]
  | none => resolver.implicitStates.map (⟨clause.name, ·⟩)

/-- The text of a binding's own action. Only names are looked up. -/
def actionText (resolver : Resolver) : Option ActionRef → String
  | none => defaultAction
  | some (.call name) => callText name
  | some (.named name) => (resolver.actions.get? name).getD name

def resolve (resolver : Resolver) (binding : Binding) : ResolvedBinding where
  events := binding.events.flatMap resolver.clauseEvents
  template := resolver.template <|> binding.template
  action := resolver.action.getD (resolver.actionText binding.action)
  modifiers := resolver.modifiers.insertAll (binding.events.flatMap EventClause.modifiers)

/-- Compiles every binding of the expressions, in order. -/
def compile (resolver : Resolver) (expressions : List Expression) : List Attribute :=
  expressions.flatten.map fun binding => (resolver.resolve binding).toAttribute

end Resolver

end EventBindings
