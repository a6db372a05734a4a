import EventBindings.GrammarError
import EventBindings.Text.Blank

namespace EventBindings

/-!
Attributes whose key names an action. The value tells which events trigger it.
-/

/-- An action attribute with its key taken apart. -/
structure ActionAttribute where
  key : String
  actionName : String
  params : List String
  /-- A binding expression that names no action. -/
  value : String
  deriving DecidableEq, Repr

namespace ActionAttribute

def parse (key value : String) : Except GrammarError ActionAttribute :=
  match ActionKey.parse key with
  | .ok parsed => .ok ⟨key, parsed.name, parsed.params, value⟩
  | .error fault => .error (.actionKey key fault)

/-- The parameters without the blanks at their ends, and without those that
are all blank. -/
def givenParams (attr : ActionAttribute) : List String :=
  (attr.params.map Text.trim).filter (fun param => param != "")

end ActionAttribute

end EventBindings
