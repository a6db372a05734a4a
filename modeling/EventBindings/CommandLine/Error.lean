import EventBindings.ActionError
import EventBindings.Text.Quoted

namespace EventBindings.CommandLine

/-!
Why a command fails. An error tells what was being done and, where there is
one, the cause.
-/

inductive CommandError where
  | invalidExpression (text : String) (cause : GrammarError)
  | invalidAction (key value : String) (cause : ActionError)
  | noHandler (key : String)
  | elementRejected (cause : ActionError)
  /-- An attribute is given as text without a key. -/
  | missingKey (text : String)
  | unreadableActions (path : String)
  | malformedActions (path : String)
  deriving DecidableEq

namespace CommandError

def headline : CommandError → String
  | .invalidExpression text _ => s!"invalid expression {Text.quote text}"
  | .invalidAction key value _ => s!"invalid action attribute {key}={Text.quote value}"
  | .noHandler key => s!"no handler registered for {key}"
  | .elementRejected _ => "element rejected"
  | .missingKey text => s!"attribute {Text.quote text} has no key"
  | .unreadableActions path => s!"failed to read {path}"
  | .malformedActions path => s!"{path} must be a JSON object of strings"

def cause? : CommandError → Option String
  | .invalidExpression _ cause => some cause.message
  | .invalidAction _ _ cause => some cause.message
  | .elementRejected cause => some cause.message
  | _ => none

/-- The whole error in one line: what was being done, then the cause. -/
def message (error : CommandError) : String :=
  match error.cause? with
  | some cause => error.headline ++ ": " ++ cause
  | none => error.headline

end CommandError

end EventBindings.CommandLine
