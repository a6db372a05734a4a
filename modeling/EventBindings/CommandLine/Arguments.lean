namespace EventBindings.CommandLine

/-!
The arguments of the program `firc`: a command with its own arguments, and
options. Options that every command knows may stand before or after the name of
the command, at most once on each side. Arguments are read in order, and the
first one that settles the outcome counts.
-/

inductive OutputFormat where
  | lines
  | json
  deriving DecidableEq, Repr

def OutputFormat.ofName? (text : String) : Option OutputFormat :=
  if text = "lines" then some .lines
  else if text = "json" then some .json
  else none

inductive CommandName where
  | translate
  | action
  | element
  deriving DecidableEq, Repr

def CommandName.ofName? (text : String) : Option CommandName :=
  if text = "translate" then some .translate
  else if text = "action" then some .action
  else if text = "element" then some .element
  else none

inductive Command where
  | translate (expression : String)
  | action (key value : String)
  | element (attributes : List String) (format : OutputFormat)
  deriving DecidableEq, Repr

/-- A command together with the options that every command knows. -/
structure Invocation where
  command : Command
  /-- The file that holds the map of actions. -/
  actionsPath : Option String := none
  verbose : Bool := false
  deriving DecidableEq, Repr

/-- Why the arguments ask for no command. -/
inductive EarlyExit where
  | version
  | help
  | usageError
  deriving DecidableEq, Repr

inductive Argument where
  /-- Two hyphens alone: what follows is no option, whatever its shape. -/
  | terminator
  /-- A name after two hyphens, perhaps with a value after an equals sign. -/
  | long (name : String) (value : Option String)
  /-- Letters after one hyphen. -/
  | short (letters : List Char)
  | plain (text : String)
  deriving DecidableEq, Repr

/-- Splits off the value behind the first equals sign. -/
def splitValue (text : List Char) : String × Option String :=
  let name := String.ofList (text.takeWhile (· != '='))
  match text.dropWhile (· != '=') with
  | [] => (name, none)
  | _ :: value => (name, some (String.ofList value))

/-- The shape of an argument. A hyphen alone is plain. -/
def Argument.classify (text : String) : Argument :=
  match text.toList with
  | ['-', '-'] => .terminator
  | '-' :: '-' :: rest => .long (splitValue rest).1 (splitValue rest).2
  | '-' :: c :: rest => .short (c :: rest)
  | _ => .plain text

/-- An option that takes a value. -/
inductive ValueOption where
  | actions
  | attr
  | format
  deriving DecidableEq, Repr

/-- Which arguments are being read: those before the name of a command, or
those of a command. -/
inductive Level where
  | program
  | command (name : CommandName)
  deriving DecidableEq, Repr

namespace Level

def capacity : Level → Nat
  | .program => 0
  | .command .translate => 1
  | .command .action => 2
  | .command .element => 0

def valueOption? (level : Level) (name : String) : Option ValueOption :=
  if name = "actions" then some .actions
  else if level = .command .element then
    if name = "attr" then some .attr
    else if name = "format" then some .format
    else none
  else none

end Level

structure ArgumentReader where
  verbose : Bool := false
  actionsPath : Option String := none
  attributes : List String := []
  format : Option OutputFormat := none
  positionals : List String := []
  /-- An option that still waits for its value. -/
  pending : Option ValueOption := none
  optionsEnded : Bool := false
  deriving DecidableEq, Repr

namespace ArgumentReader

/-- Takes a flag, which may be given once. -/
def setVerbose (reader : ArgumentReader) : Except EarlyExit ArgumentReader :=
  if reader.verbose then .error .usageError else .ok { reader with verbose := true }

/-- Takes the value of an option. Only attributes may be given repeatedly. -/
def setOption (reader : ArgumentReader) (option : ValueOption) (value : String) :
    Except EarlyExit ArgumentReader :=
  let reader := { reader with pending := none }
  match option with
  | .actions =>
      if reader.actionsPath.isSome || value = "" then .error .usageError
      else .ok { reader with actionsPath := some value }
  | .attr => .ok { reader with attributes := reader.attributes ++ [value] }
  | .format =>
      match reader.format, OutputFormat.ofName? value with
      | none, some format => .ok { reader with format := some format }
      | _, _ => .error .usageError

def addPositional (reader : ArgumentReader) (level : Level) (text : String) :
    Except EarlyExit ArgumentReader :=
  if reader.positionals.length < level.capacity then
    .ok { reader with positionals := reader.positionals ++ [text] }
  else .error .usageError

def readLong (reader : ArgumentReader) (level : Level) (name : String) (value : Option String) :
    Except EarlyExit ArgumentReader :=
  match level.valueOption? name, value with
  | some option, some value => reader.setOption option value
  | some option, none => .ok { reader with pending := some option }
  | none, some _ => .error .usageError
  | none, none =>
      if name = "verbose" then reader.setVerbose
      else if name = "help" then .error .help
      else if name = "version" && level = .program then .error .version
      else .error .usageError

/-- Takes options with names of one letter, from left to right. -/
def readShort (level : Level) (reader : ArgumentReader) :
    List Char → Except EarlyExit ArgumentReader
  | [] => .ok reader
  | letter :: rest =>
      if letter = 'v' then do readShort level (← reader.setVerbose) rest
      else if letter = 'h' then .error .help
      else if letter = 'V' && level = .program then .error .version
      else .error .usageError

def step (level : Level) (reader : ArgumentReader) (text : String) :
    Except EarlyExit ArgumentReader :=
  if reader.optionsEnded then reader.addPositional level text
  else match reader.pending, Argument.classify text with
    | some option, .plain value => reader.setOption option value
    | some _, _ => .error .usageError
    | none, .plain value => reader.addPositional level value
    | none, .terminator => .ok { reader with optionsEnded := true }
    | none, .long name value => reader.readLong level name value
    | none, .short letters => readShort level reader letters

/-- The command, when its arguments end. -/
def command (reader : ArgumentReader) (name : CommandName) : Except EarlyExit Command :=
  match reader.pending, name, reader.positionals with
  | none, .translate, [expression] => .ok (.translate expression)
  | none, .action, [key, value] => .ok (.action key value)
  | none, .element, [] => .ok (.element reader.attributes (reader.format.getD .lines))
  | _, _, _ => .error .usageError

end ArgumentReader

/-- Reads the arguments of a command. What stands nearer to the end counts. -/
def readCommand (program : ArgumentReader) (name : CommandName) (arguments : List String) :
    Except EarlyExit Invocation := do
  let reader ← arguments.foldlM (ArgumentReader.step (.command name)) {}
  let command ← reader.command name
  return {
    command
    actionsPath := reader.actionsPath <|> program.actionsPath
    verbose := reader.verbose || program.verbose
  }

/-- The outcome of asking for help in words: about the program, or about one
of its commands. -/
def helpFor : List String → EarlyExit
  | [] => .help
  | [name] => if name = "help" || (CommandName.ofName? name).isSome then .help else .usageError
  | _ => .usageError

/-- Reads the arguments up to the name of a command, then those of the
command. -/
def readProgram (reader : ArgumentReader) : List String → Except EarlyExit Invocation
  | [] => .error .usageError
  | text :: rest =>
      if reader.optionsEnded || reader.pending.isSome then do
        readProgram (← reader.step .program text) rest
      else match CommandName.ofName? text with
        | some name => readCommand reader name rest
        | none =>
            if text = "help" then .error (helpFor rest)
            else do readProgram (← reader.step .program text) rest

def readArguments (arguments : List String) : Except EarlyExit Invocation :=
  readProgram {} arguments

end EventBindings.CommandLine
