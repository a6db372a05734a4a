import EventBindings.Binding.EventReader
import EventBindings.Token.Lexer

namespace EventBindings

/-!
Reading binding keys: the part of an attribute key that names the events and
the template of a binding already compiled.

    key = group ("," group)* ("::" name modifier*)?

Groups are those of binding expressions. Modifiers after the template belong
to the last event.
-/

inductive KeyReader where
  | inEvents (reader : EventReader)
  | templateDue (events : List EventClause)
  | afterTemplate (events : List EventClause) (template : String)
  deriving DecidableEq, Repr

def addModifierToLast (modifier : String) : List EventClause → List EventClause
  | [] => []
  | [last] => [last.addModifier modifier]
  | clause :: rest => clause :: addModifierToLast modifier rest

namespace KeyReader

def step (reader : KeyReader) (next : PlacedToken) : Except GrammarError KeyReader :=
  match reader, next.token with
  | .inEvents reader, token => do
      match ← reader.step next with
      | .reading reader => return .inEvents reader
      | .complete events =>
          if token = .doubleColon then return .templateDue events
          else throw (.expected .endOfKey token next.offset)
  | .templateDue events, .identifier name => .ok (.afterTemplate events name)
  | .templateDue _, token => .error (.expected .templateAfterColons token next.offset)
  | .afterTemplate events template, .modifier name =>
      .ok (.afterTemplate (addModifierToLast name events) template)
  | .afterTemplate _ _, token => .error (.expected .endOfKey token next.offset)

/-- Learns that the key ends at the offset. -/
def finish (reader : KeyReader) (offset : Nat) : Except GrammarError Binding :=
  match reader with
  | .inEvents reader => do
      let events ← reader.finish offset
      return ⟨events, none, none⟩
  | .templateDue _ => .error (.expected .templateAfterColons none offset)
  | .afterTemplate events template => .ok ⟨events, some template, none⟩

end KeyReader

/-- Reads a binding key from the tokens of a text that ends at the offset. -/
def readBindingKey (tokens : List PlacedToken) (endOffset : Nat) :
    Except GrammarError Binding := do
  let reader ← tokens.foldlM KeyReader.step (.inEvents .start)
  reader.finish endOffset

/-- Reads a binding key, without the text that marks it as one. The binding
has no action. -/
def parseBindingKey (key : String) : Except GrammarError Binding := do
  if key.isEmpty then throw .empty
  let tokens ← tokenize key
  readBindingKey tokens (Text.byteLength key.toList)

end EventBindings
