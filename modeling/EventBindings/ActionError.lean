import EventBindings.GrammarError
import EventBindings.Handler

namespace EventBindings

/-!
Why an action attribute, or the action attributes of an element together,
cannot be compiled.
-/

/-- What is wrong with the parameters in a key. Blank ones do not count. -/
inductive ParamFault where
  | takesNone (given : Nat)
  | takesExactlyOne (given : Nat)
  | takesAtMostOne (given : Nat)
  | requiresAtLeastOne
  /-- Neither a parameter nor the value names a template. -/
  | requiresTemplate
  deriving DecidableEq, Repr

def ParamFault.message (handlerName : String) : ParamFault → String
  | .takesNone given => s!"takes no parameters, got {given}"
  | .takesExactlyOne given => s!"takes exactly 1 parameter(s), got {given}"
  | .takesAtMostOne given => s!"takes at most 1 parameter(s), got {given}"
  | .requiresAtLeastOne => "requires at least 1 non-empty parameter(s), got 0"
  | .requiresTemplate =>
      s!"requires a template name, as {actionKeyStart}{handlerName}:<template> or '->template'"

/-- Why the caller's map gives no action. -/
inductive LookupFault where
  | missing
  | blank
  deriving DecidableEq, Repr

def LookupFault.message : LookupFault → String
  | .missing => "is not in the actions map"
  | .blank => "has an empty value"

/-- Why action attributes are refused. -/
inductive ActionError where
  | grammar (fault : GrammarError)
  | params (handler : Handler) (fault : ParamFault)
  | lookup (name : String) (fault : LookupFault)
  /-- The value of the attribute with that key names an action of its own. -/
  | explicitAction (key : String)
  /-- Two attributes work against each other on the events. -/
  | conflict (first second : String) (events : OrderedSet Event)
  deriving DecidableEq

def ActionError.message : ActionError → String
  | .grammar fault => fault.message
  | .params handler fault => s!"{actionKeyStart}{handler.name}: {fault.message handler.name}"
  | .lookup name fault => s!"action '{name}' {fault.message}"
  | .explicitAction key =>
      s!"{key}: the action comes from the attribute key, '=>' is not allowed in the value"
  | .conflict first second events =>
      let shared := String.intercalate ", " (events.toList.map Event.text)
      s!"'{first}' conflicts with '{second}' on {shared}"

end EventBindings
