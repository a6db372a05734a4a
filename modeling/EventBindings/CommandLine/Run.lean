import EventBindings.CommandLine.Arguments
import EventBindings.CommandLine.Error
import EventBindings.Element
import EventBindings.Json.Attributes
import EventBindings.Json.StringObject

namespace EventBindings.CommandLine

/-!
What the commands of the program print. The contents of the one file that the
program reads are given as bytes.
-/

/-- The map of actions in a file. No path stands for an empty map, no contents
for a file that cannot be read. -/
def loadActions (path : Option String) (contents : Option ByteArray) :
    Except CommandError ActionMap :=
  match path with
  | none => .ok ∅
  | some path =>
      match contents.bind String.fromUTF8? with
      | none => .error (.unreadableActions path)
      | some text =>
          match Json.parseStringObject text with
          | none => .error (.malformedActions path)
          | some entries => .ok (.ofList entries)

def runTranslate (expression : String) (actions : ActionMap) : Except CommandError String :=
  (translateExpression expression actions).mapError (.invalidExpression expression)

def runAction (key value : String) (actions : ActionMap) : Except CommandError String := do
  match ← (translateAction key value .builtin actions).mapError (.invalidAction key value) with
  | some text => return text
  | none => throw (.noHandler key)

/-- An attribute given as text, split at its first equals sign. A text without
one is a key without a value. -/
def splitAttribute (text : String) : Except CommandError Attribute :=
  let key := text.toList.takeWhile (· != '=')
  let value := (text.toList.dropWhile (· != '=')).drop 1
  if key.all Text.isBlank then .error (.missingKey text)
  else .ok ⟨String.ofList (Text.trimBlanks key), String.ofList value⟩

def OutputFormat.render (attributes : List Attribute) : OutputFormat → String
  | .lines => renderLines attributes
  | .json => Json.attributesText attributes

def runElement (attributes : List String) (actions : ActionMap) (format : OutputFormat) :
    Except CommandError String := do
  let attributes ← attributes.mapM splitAttribute
  let compiled ← (compileElement attributes .builtin actions).mapError .elementRejected
  return format.render compiled

def Command.run (actions : ActionMap) : Command → Except CommandError String
  | .translate expression => runTranslate expression actions
  | .action key value => runAction key value actions
  | .element attributes format => runElement attributes actions format

def Invocation.run (invocation : Invocation) (contents : Option ByteArray) :
    Except CommandError String := do
  let actions ← loadActions invocation.actionsPath contents
  invocation.command.run actions

def versionText : String := "firc 0.1.0\n"

def helpText : String :=
  String.intercalate "\n"
    ["Compile fir binding expressions and x-fir-* attributes",
      "",
      "Usage: firc [OPTIONS] <COMMAND>",
      "",
      "Commands:",
      "  translate <EXPR>      Translate a binding expression, e.g. \"create->todo=>save\"",
      "  action <KEY> <VALUE>  Translate one action attribute, e.g. x-fir-append:todo create",
      "  element               Compile all attributes of one element",
      "  help                  Print this message",
      "",
      "Options of every command:",
      "  -v, --verbose         Report more on the error stream",
      "      --actions <FILE>  JSON file mapping action names to JS calls",
      "  -h, --help            Print this message",
      "  -V, --version         Print the version",
      "",
      "Options of element:",
      "      --attr <KEY=VALUE>  An attribute of the element, repeatable",
      "      --format <FORMAT>   lines (the default) or json",
      ""]

/-- What the program leaves behind: its exit status, its output and, if it
failed, the error. -/
structure Outcome where
  status : Nat
  output : String := ""
  error : Option CommandError := none
  deriving DecidableEq

/-- The output of a command that succeeds ends its last line. No output prints
nothing. -/
def Outcome.ofResult : Except CommandError String → Outcome
  | .ok text => { status := 0, output := if text = "" then "" else text ++ "\n" }
  | .error error => { status := 1, error := some error }

/-- What the program leaves behind when the arguments ask for no command. -/
def EarlyExit.outcome : EarlyExit → Outcome
  | .version => { status := 0, output := versionText }
  | .help => { status := 0, output := helpText }
  | .usageError => { status := 2 }

def Invocation.outcome (invocation : Invocation) (contents : Option ByteArray) : Outcome :=
  .ofResult (invocation.run contents)

end EventBindings.CommandLine
