import EventBindings.Conflict
import EventBindings.Handler.Translate
import EventBindings.Registry

namespace EventBindings

/-!
Compiling the attributes of one element. Expressions and bindings that are
already written as such come first, in document order. Actions follow, by the
precedence of their handlers.
-/

/-- The key of an attribute whose value is a whole binding expression. -/
def renderKey : String := "x-fir-render"

/-- Another way to begin the key of a binding. -/
def alternativeKeyStart : String := "x-on:fir:"

/-- What an attribute is, judged by its key. -/
inductive AttributeRole where
  /-- The value is a binding expression. -/
  | render
  /-- The attribute is a binding. The rest of its key names the events. -/
  | binding (key : String)
  | action
  /-- The attribute is none of ours. -/
  | foreign
  deriving DecidableEq, Repr

def AttributeRole.ofKey (key : String) : AttributeRole :=
  if key = renderKey then .render
  else match Text.afterStart? bindingKeyStart key with
    | some rest => .binding rest
    | none =>
        match Text.afterStart? alternativeKeyStart key with
        | some rest => .binding rest
        | none => if (Text.afterStart? actionKeyStart key).isSome then .action else .foreign

/-- What one attribute gives to its element. -/
inductive Contribution where
  /-- Compiled attributes, which keep their place. -/
  | passed (attributes : List Attribute)
  /-- An action, which waits for the others. -/
  | collected (action : CollectedAction)
  | skipped
  deriving DecidableEq

namespace Contribution

def passed? : Contribution → List Attribute
  | .passed attributes => attributes
  | _ => []

def collected? : Contribution → Option CollectedAction
  | .collected action => some action
  | _ => none

/-- Finds out what an attribute gives to its element. An action without a
registered handler is skipped, whatever its value. -/
def ofAttribute (registry : Registry) (actions : ActionMap) (attr : Attribute) :
    Except GrammarError Contribution :=
  match AttributeRole.ofKey attr.key with
  | .render => .passed <$> compileExpression attr.value actions
  | .binding key => do
      let compiled ← compileBindingKey key attr.value
      return .passed [compiled]
  | .action => do
      let action ← ActionAttribute.parse attr.key attr.value
      match registry.resolve? action.actionName with
      | some handler => return .collected (← CollectedAction.collect handler action)
      | none => return .skipped
  | .foreign => .ok .skipped

end Contribution

/-- The actions by ascending precedence, in document order where it is
equal. -/
def byPrecedence (actions : List CollectedAction) : List CollectedAction :=
  actions.mergeSort fun first second => first.handler.precedence ≤ second.handler.precedence

/-- Compiles the attributes of an element, or nothing at all. -/
def compileElement (attributes : List Attribute) (registry : Registry) (actions : ActionMap) :
    Except ActionError (List Attribute) := do
  let contributions ←
    (attributes.mapM (Contribution.ofAttribute registry actions)).mapError .grammar
  let collected := byPrecedence (contributions.filterMap Contribution.collected?)
  checkConflicts collected
  let translated ← collected.mapM fun action => action.handler.translate action.attr actions
  return contributions.flatMap Contribution.passed? ++ translated.flatten

/-- Translates a single action attribute to lines. There are none when no
handler is registered for it. -/
def translateAction (key value : String) (registry : Registry) (actions : ActionMap) :
    Except ActionError (Option String) := do
  if key = renderKey then
    return some (← (translateExpression value actions).mapError .grammar)
  let attr ← (ActionAttribute.parse key value).mapError .grammar
  match registry.resolve? attr.actionName with
  | some handler => return some (renderLines (← handler.translate attr actions))
  | none => return none

end EventBindings
