import EventBindings.ActionAttribute
import EventBindings.ActionError
import EventBindings.Compile

namespace EventBindings

/-!
What each handler makes of an attribute. The key supplies the action, the value
supplies events, modifiers and templates.
-/

namespace Handler

/-- The modifier of bindings whose action needs no rendered text. -/
def withoutHtml : String := "nohtml"

def noParam (handler : Handler) : List String → Except ActionError Unit
  | [] => .ok ()
  | params => .error (.params handler (.takesNone params.length))

def oneParam (handler : Handler) : List String → Except ActionError String
  | [param] => .ok param
  | params => .error (.params handler (.takesExactlyOne params.length))

def optionalParam (handler : Handler) : List String → Except ActionError (Option String)
  | [] => .ok none
  | [param] => .ok (some param)
  | params => .error (.params handler (.takesAtMostOne params.length))

def someParams (handler : Handler) : List String → Except ActionError (List String)
  | [] => .error (.params handler .requiresAtLeastOne)
  | params => .ok params

/-- A resolver for an action that needs no rendered text. -/
def plainResolver (action : String) : Resolver :=
  { action := some action, modifiers := .ofList [withoutHtml] }

def quoteParam (param : String) : String :=
  "'" ++ param ++ "'"

def toggleClassText (classes : List String) : String :=
  "$fir.toggleClass(" ++ String.intercalate "," (classes.map quoteParam) ++ ")"

def dispatchText (events : List String) : String :=
  String.intercalate "; " (events.map fun event => "$dispatch(" ++ quoteParam event ++ ")")

/-- The action that leaves for a path of the site, its root by default. -/
def redirectText (path : Option String) : String :=
  "$fir.redirect(" ++ quoteParam ("/" ++ path.getD "") ++ ")"

/-- The action under a name that has to be in the map. -/
def mappedAction (actions : ActionMap) (name : String) : Except ActionError String :=
  match actions.get? name with
  | none => .error (.lookup name .missing)
  | some action =>
      if Text.isAllBlank action then .error (.lookup name .blank) else .ok action

/-- The action under a name, or the name where the map has nothing for it. -/
def scriptAction (actions : ActionMap) (name : String) : String :=
  match actions.get? name with
  | some action => if Text.isAllBlank action then name else action
  | none => name

/-- A resolver for an action that puts a template into the element. Where the
key names no template, every binding has to name one. -/
def insertionResolver (handler : Handler) (action : String) (bindings : List Binding)
    (params : List String) : Except ActionError Resolver := do
  let template ← handler.optionalParam params
  if template.isNone && bindings.any (fun binding => binding.template.isNone) then
    throw (.params handler .requiresTemplate)
  return { action := some action, template }

/-- The script that an attribute runs. A script named in the action name
leaves no room for parameters. -/
def scriptOf (attr : ActionAttribute) : Except ActionError String :=
  match scriptName? attr.actionName with
  | some named => do
      Handler.script.noParam attr.givenParams
      return named
  | none => Handler.script.oneParam attr.givenParams

/-- How a handler completes the bindings of an attribute's value. -/
def resolver (handler : Handler) (attr : ActionAttribute) (bindings : List Binding)
    (actions : ActionMap) : Except ActionError Resolver := do
  let params := attr.givenParams
  match handler with
  | .refresh =>
      handler.noParam params
      return { action := some defaultAction }
  | .remove =>
      handler.noParam params
      return plainResolver (callText "removeEl")
  | .removeParent =>
      handler.noParam params
      return plainResolver (callText "removeParentEl")
  | .append => handler.insertionResolver (callText "appendEl") bindings params
  | .prepend => handler.insertionResolver (callText "prependEl") bindings params
  | .reset =>
      handler.noParam params
      return plainResolver "$el.reset()"
  | .toggleDisabled =>
      handler.noParam params
      return (plainResolver (callText "toggleDisabled")).withImplicitStates [.pending, .done]
  | .toggleClass => return plainResolver (toggleClassText (← handler.someParams params))
  | .dispatch => return plainResolver (dispatchText (← handler.someParams params))
  | .run => return plainResolver (← mappedAction actions (← handler.oneParam params))
  | .redirect => return plainResolver (redirectText (← handler.optionalParam params))
  | .script => return plainResolver (scriptAction actions (← scriptOf attr))

/-- Compiles an action attribute to one attribute for each binding of its
value. -/
def translate (handler : Handler) (attr : ActionAttribute) (actions : ActionMap) :
    Except ActionError (List Attribute) := do
  let expressions ← (parse attr.value).mapError .grammar
  if expressions.flatten.any (fun binding => binding.action.isSome) then
    throw (.explicitAction attr.key)
  let resolver ← handler.resolver attr expressions.flatten actions
  return resolver.compile expressions

end Handler

end EventBindings
