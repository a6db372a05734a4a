import EventBindings.Binding.ExpressionReader
import EventBindings.Binding.KeyReader
import EventBindings.Binding.Resolver

namespace EventBindings

/-!
Compiling binding expressions and binding keys to canonical attributes.
-/

/-- Compiles an expression to one attribute for each of its bindings. -/
def compileExpression (text : String) (actions : ActionMap) :
    Except GrammarError (List Attribute) := do
  let expressions ← parse text
  let resolver : Resolver := { actions }
  return resolver.compile expressions

def translateExpression (text : String) (actions : ActionMap) : Except GrammarError String := do
  return renderLines (← compileExpression text actions)

/-- The action that the value of a binding attribute stands for: the value
without the blanks at its ends, or the default action when nothing is left. -/
def bindingAction (value : String) : String :=
  if Text.isAllBlank value then defaultAction else Text.trim value

/-- Brings a binding attribute into canonical form. The key is given without
the text that marks it. -/
def compileBindingKey (key value : String) : Except GrammarError Attribute := do
  let binding ← parseBindingKey key
  let resolver : Resolver := { action := some (bindingAction value) }
  return (resolver.resolve binding).toAttribute

/-- The event of a clause, with the outcome `ok` unless it names another. -/
def EventClause.event (clause : EventClause) : Event :=
  ⟨clause.name, clause.state.getD .ok⟩

/-- The events that an expression listens to. -/
def declaredEvents (text : String) : Except GrammarError (OrderedSet Event) := do
  let expressions ← parse text
  return .ofList ((expressions.flatten.flatMap Binding.events).map EventClause.event)

end EventBindings
