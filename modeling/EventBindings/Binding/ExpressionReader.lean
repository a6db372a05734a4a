import EventBindings.Binding.EventReader
import EventBindings.Text.Spacing
import EventBindings.Token.Lexer

namespace EventBindings

/-!
Reading binding expressions, one token at a time.

    expressions = expression (";" expression)* ";"?
    expression  = binding ("," binding)*
    binding     = group ("," group)* target
    group       = event | "[" event ("," event)* "]" modifier*
    event       = name state? modifier*
    target      = ("->" name)? ("=>" (name | call))?

A comma adds events to a binding until a template or an action ends it, so
`a,b->t,c` is the binding `a,b->t` and the binding `c`.
-/

/-- A place inside an expression. -/
inductive ExpressionPlace where
  | inEvents (reader : EventReader)
  /-- Right after a semicolon the text may end, but no other semicolon may
  follow. -/
  | afterSemicolon
  | templateDue (events : List EventClause)
  | afterTemplate (events : List EventClause) (template : String)
  | actionDue (events : List EventClause) (template : Option String)
  | afterAction (binding : Binding)
  deriving DecidableEq, Repr

/-- A place in a text of expressions, with what has been read before it. -/
structure ExpressionReader where
  /-- The expressions that a semicolon has ended. -/
  finished : List Expression := []
  /-- The ended bindings of the present expression. -/
  bindings : List Binding := []
  place : ExpressionPlace := .inEvents .start
  deriving DecidableEq, Repr

namespace ExpressionReader

def moveTo (reader : ExpressionReader) (place : ExpressionPlace) : ExpressionReader :=
  { reader with place }

def endBinding (reader : ExpressionReader) (binding : Binding) : ExpressionReader :=
  { reader with bindings := reader.bindings ++ [binding], place := .inEvents .start }

/-- Every expression read, the present one with its last binding included. -/
def endExpression (reader : ExpressionReader) (binding : Binding) : List Expression :=
  reader.finished ++ [reader.bindings ++ [binding]]

def endAtSemicolon (reader : ExpressionReader) (binding : Binding) : ExpressionReader :=
  { finished := reader.endExpression binding, bindings := [], place := .afterSemicolon }

/-- Reads a token that continues the events of a binding or comes right after
them. -/
def stepEvents (reader : ExpressionReader) (events : EventReader) (next : PlacedToken) :
    Except GrammarError ExpressionReader := do
  match ← events.step next with
  | .reading events => return reader.moveTo (.inEvents events)
  | .complete events =>
      match next.token with
      | .arrow => return reader.moveTo (.templateDue events)
      | .doubleArrow => return reader.moveTo (.actionDue events none)
      | .semicolon => return reader.endAtSemicolon ⟨events, none, none⟩
      | token => throw (.expected .separator token next.offset)

/-- Reads a token after a binding that cannot go on. -/
def stepEnded (reader : ExpressionReader) (binding : Binding) (next : PlacedToken) :
    Except GrammarError ExpressionReader :=
  match next.token with
  | .comma => .ok (reader.endBinding binding)
  | .semicolon => .ok (reader.endAtSemicolon binding)
  | token => .error (.expected .separator token next.offset)

def step (reader : ExpressionReader) (next : PlacedToken) :
    Except GrammarError ExpressionReader :=
  match reader.place, next.token with
  | .inEvents events, _ => reader.stepEvents events next
  | .afterSemicolon, .semicolon => .error (.emptyExpression next.offset)
  | .afterSemicolon, _ => reader.stepEvents .start next
  | .templateDue events, .identifier name => .ok (reader.moveTo (.afterTemplate events name))
  | .templateDue _, token => .error (.expected .templateAfterArrow token next.offset)
  | .afterTemplate events template, .doubleArrow =>
      .ok (reader.moveTo (.actionDue events (some template)))
  | .afterTemplate events template, _ => reader.stepEnded ⟨events, some template, none⟩ next
  | .actionDue events template, .identifier name =>
      .ok (reader.moveTo (.afterAction ⟨events, template, some (.named name)⟩))
  | .actionDue events template, .call name =>
      .ok (reader.moveTo (.afterAction ⟨events, template, some (.call name)⟩))
  | .actionDue _ _, token => .error (.expected .actionAfterArrow token next.offset)
  | .afterAction binding, _ => reader.stepEnded binding next

/-- Learns that the text ends at the offset. -/
def finish (reader : ExpressionReader) (offset : Nat) : Except GrammarError (List Expression) :=
  match reader.place with
  | .inEvents events => do
      let events ← events.finish offset
      return reader.endExpression ⟨events, none, none⟩
  | .afterSemicolon => .ok reader.finished
  | .templateDue _ => .error (.expected .templateAfterArrow none offset)
  | .afterTemplate events template => .ok (reader.endExpression ⟨events, some template, none⟩)
  | .actionDue _ _ => .error (.expected .actionAfterArrow none offset)
  | .afterAction binding => .ok (reader.endExpression binding)

end ExpressionReader

/-- Reads all expressions from the tokens of a text that ends at the offset. -/
def readExpressions (tokens : List PlacedToken) (endOffset : Nat) :
    Except GrammarError (List Expression) := do
  let reader ← tokens.foldlM ExpressionReader.step {}
  reader.finish endOffset

/-- Reads the expressions of an attribute value. Offsets in errors count from
the start of the text in its normal spacing. -/
def parse (text : String) : Except GrammarError (List Expression) := do
  let text := Text.normalize text
  if text.isEmpty then throw .empty
  let tokens ← tokenize text
  readExpressions tokens (Text.byteLength text.toList)

end EventBindings
