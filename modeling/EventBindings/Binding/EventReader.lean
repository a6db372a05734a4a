import EventBindings.Binding
import EventBindings.GrammarError

namespace EventBindings

/-!
Reading the events of a binding, one token at a time. Events are separated by
commas; brackets may stand around some of them and change nothing, except that
modifiers may also follow the closing bracket. They belong to the last event.

Brackets do not nest, so a reader is a place in the grammar together with the
clauses read so far.
-/

/-- A place in a list of events. -/
inductive EventReader where
  /-- A name or an opening bracket is due. -/
  | groupDue (finished : List EventClause)
  /-- Inside the bracket that opens at the offset, a name is due. -/
  | nameDue (finished : List EventClause) (opened : Nat)
  /-- The last clause may still grow. Its outcome may follow only right after
  its name, and an offset tells which bracket is still open. -/
  | inClause (finished : List EventClause) (last : EventClause) (stateAllowed : Bool)
      (opened : Option Nat)
  deriving DecidableEq, Repr

namespace EventReader

def start : EventReader := .groupDue []

/-- What a reader makes of the next token. -/
inductive Step where
  /-- The token belongs to the events. -/
  | reading (next : EventReader)
  /-- The events are complete, and the token belongs to what follows. -/
  | complete (events : List EventClause)
  deriving DecidableEq, Repr

def step (reader : EventReader) (next : PlacedToken) : Except GrammarError Step :=
  match reader, next.token with
  | .groupDue finished, .identifier name =>
      .ok (.reading (.inClause finished ⟨name, none, []⟩ true none))
  | .groupDue finished, .openBracket => .ok (.reading (.nameDue finished next.offset))
  | .groupDue _, token => .error (.expected .eventName token next.offset)
  | .nameDue finished opened, .identifier name =>
      .ok (.reading (.inClause finished ⟨name, none, []⟩ true (some opened)))
  | .nameDue _ _, token => .error (.expected .eventName token next.offset)
  | .inClause finished last true opened, .state outcome =>
      .ok (.reading (.inClause finished { last with state := some outcome } false opened))
  | .inClause finished last _ opened, .modifier name =>
      .ok (.reading (.inClause finished (last.addModifier name) false opened))
  | .inClause finished last _ (some opened), .comma =>
      .ok (.reading (.nameDue (finished ++ [last]) opened))
  | .inClause finished last _ (some _), .closeBracket =>
      .ok (.reading (.inClause finished last false none))
  | .inClause _ _ _ (some opened), _ => .error (.unclosedBracket opened)
  | .inClause finished last _ none, .comma => .ok (.reading (.groupDue (finished ++ [last])))
  | .inClause finished last _ none, _ => .ok (.complete (finished ++ [last]))

/-- The events, when the text ends at the offset. -/
def finish (reader : EventReader) (offset : Nat) : Except GrammarError (List EventClause) :=
  match reader with
  | .groupDue _ => .error (.expected .eventName none offset)
  | .nameDue _ _ => .error (.expected .eventName none offset)
  | .inClause _ _ _ (some opened) => .error (.unclosedBracket opened)
  | .inClause finished last _ none => .ok (finished ++ [last])

end EventReader

end EventBindings
