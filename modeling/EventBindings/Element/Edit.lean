import EventBindings.Element

namespace EventBindings

/-!
Editing an element. An element under edit keeps its attributes and the map of
its actions, and can be compiled after every edit.
-/

structure ElementDraft where
  attributes : List Attribute := []
  actions : ActionMap := ∅
  deriving DecidableEq, Repr

/-- A change of an element under edit. -/
inductive ElementEdit where
  /-- Puts an attribute after all others, even if it has the key of one. -/
  | addAttribute (key value : String)
  /-- Changes the value of every attribute with the key. -/
  | setAttribute (key value : String)
  /-- Takes away every attribute with the key. -/
  | removeAttribute (key : String)
  | reverseAttributes
  | setAction (name action : String)
  | removeAction (name : String)
  deriving DecidableEq, Repr

namespace ElementDraft

def apply (draft : ElementDraft) : ElementEdit → ElementDraft
  | .addAttribute key value => { draft with attributes := draft.attributes ++ [⟨key, value⟩] }
  | .setAttribute key value =>
      { draft with attributes := draft.attributes.map fun attr =>
          if attr.key = key then ⟨key, value⟩ else attr }
  | .removeAttribute key =>
      { draft with attributes := draft.attributes.filter fun attr => attr.key != key }
  | .reverseAttributes => { draft with attributes := draft.attributes.reverse }
  | .setAction name action => { draft with actions := draft.actions.insert name action }
  | .removeAction name => { draft with actions := draft.actions.erase name }

def lines (draft : ElementDraft) (registry : Registry) : Except ActionError String := do
  return renderLines (← compileElement draft.attributes registry draft.actions)

/-- What the element compiles to after each of the edits. -/
def linesAfterEach (registry : Registry) (draft : ElementDraft) :
    List ElementEdit → List (Except ActionError String)
  | [] => []
  | edit :: rest =>
      let edited := draft.apply edit
      edited.lines registry :: linesAfterEach registry edited rest

end ElementDraft

end EventBindings
