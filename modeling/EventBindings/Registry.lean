import EventBindings.Handler

namespace EventBindings

/-!
The handlers that an element may use.
-/

/-- A set of handlers. -/
structure Registry where
  registered : Handler → Bool

namespace Registry

def ofHandlers (handlers : List Handler) : Registry :=
  ⟨fun handler => handler ∈ handlers⟩

def builtin : Registry := ofHandlers Handler.all

instance : Inhabited Registry := ⟨builtin⟩

def get? (registry : Registry) (name : String) : Option Handler :=
  (Handler.ofName? name).filter registry.registered

/-- The handler for an action name: the one of that name or, for a name that
names a script, the one that runs scripts. -/
def resolve? (registry : Registry) (actionName : String) : Option Handler :=
  match registry.get? actionName with
  | some handler => some handler
  | none => (Handler.scriptName? actionName).bind fun _ => registry.get? Handler.script.name

/-- The registered handlers by ascending precedence, those of equal precedence
by name. -/
def handlers (registry : Registry) : List Handler :=
  (Handler.all.filter registry.registered).mergeSort fun first second =>
    ¬ second.RanksBefore first

def size (registry : Registry) : Nat :=
  registry.handlers.length

def isEmpty (registry : Registry) : Bool :=
  registry.handlers.isEmpty

end Registry

end EventBindings
