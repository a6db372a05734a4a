import EventBindings.Attribute
import EventBindings.Event

namespace EventBindings

/-!
Bindings with every default filled in, and their canonical keys.
-/

/-- A binding with its outcomes, its action and its set of modifiers. -/
structure ResolvedBinding where
  events : List Event
  template : Option String
  action : String
  modifiers : OrderedSet String
  deriving DecidableEq

/-- The text that begins the key of every compiled binding. -/
def bindingKeyStart : String := "@fir:"

namespace ResolvedBinding

/-- One event stands alone, any other number of events in brackets. -/
def eventsText (events : List Event) : String :=
  match events with
  | [event] => event.text
  | events => "[" ++ String.intercalate "," (events.map Event.text) ++ "]"

def templateText : Option String → String
  | none => ""
  | some template => "::" ++ template

/-- The modifiers in ascending order, a dot before each. -/
def modifiersText (modifiers : OrderedSet String) : String :=
  String.join (modifiers.toList.map ("." ++ ·))

/-- The canonical key without the text that begins it. -/
def keyText (binding : ResolvedBinding) : String :=
  eventsText binding.events ++ templateText binding.template ++ modifiersText binding.modifiers

/-- The canonical key: events in the order of their declaration, template,
modifiers. -/
def canonicalKey (binding : ResolvedBinding) : String :=
  bindingKeyStart ++ binding.keyText

def toAttribute (binding : ResolvedBinding) : Attribute :=
  ⟨binding.canonicalKey, binding.action⟩

end ResolvedBinding

end EventBindings
