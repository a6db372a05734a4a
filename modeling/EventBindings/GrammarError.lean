import EventBindings.Token
import EventBindings.ActionKey

namespace EventBindings

/-!
Why a text is no binding expression, no binding key or no action key. Reading
never gives a partial result, so each of these refuses the whole text.
-/

inductive Expectation where
  | eventName
  | separator
  | templateAfterArrow
  | actionAfterArrow
  | templateAfterColons
  | endOfKey
  deriving DecidableEq, Repr

/-- What was expected, in the words of error messages. -/
def Expectation.describe : Expectation → String
  | .eventName => "event identifier"
  | .separator => "',' or ';'"
  | .templateAfterArrow => "template name after '->'"
  | .actionAfterArrow => "action after '=>'"
  | .templateAfterColons => "template name after '::'"
  | .endOfKey => "end of binding key"

inductive GrammarError where
  /-- There is no expression at all. -/
  | empty
  /-- A second semicolon stands at the offset, with nothing before it. -/
  | emptyExpression (offset : Nat)
  | unexpectedCharacter (c : Char) (offset : Nat)
  /-- The name after a colon, possibly empty, is no outcome. -/
  | unknownState (name : String) (offset : Nat)
  /-- No name follows a dot. -/
  | missingModifier (offset : Nat)
  /-- A text that begins with a dollar sign calls no built-in action. -/
  | malformedCall (text : String) (offset : Nat)
  /-- The bracket that opens at the offset is not closed. -/
  | unclosedBracket (offset : Nat)
  /-- Another token than the expected one, or none, stands at the offset. -/
  | expected (expectation : Expectation) (found : Option Token) (offset : Nat)
  | actionKey (key : String) (fault : ActionKey.Fault)
  deriving DecidableEq, Repr

namespace GrammarError

/-- What stands where something else was expected. -/
def describeFound : Option Token → String
  | none => "end of input"
  | some token => token.describe

def message : GrammarError → String
  | .empty => "empty expression"
  | .emptyExpression offset => s!"empty expression after ';' at offset {offset}"
  | .unexpectedCharacter c offset => s!"unexpected character '{c}' at offset {offset}"
  | .unknownState name offset =>
      s!"invalid event state '{name}' at offset {offset} (expected ok, error, pending or done)"
  | .missingModifier offset => s!"missing modifier name after '.' at offset {offset}"
  | .malformedCall text offset => s!"malformed action literal '{text}' at offset {offset}"
  | .unclosedBracket offset => s!"unclosed '[' opened at offset {offset}"
  | .expected expectation found offset =>
      s!"expected {expectation.describe} at offset {offset}, found {describeFound found}"
  | .actionKey key fault => s!"invalid action key '{key}': {fault.message}"

end GrammarError

end EventBindings
