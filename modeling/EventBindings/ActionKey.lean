import EventBindings.Text.Identifier
import EventBindings.Text.Start

namespace EventBindings

/-!
Action keys: the keys of attributes that name an action. A key is `x-fir-`, the
action's name and, after a colon, one parameter or a list of parameters in
brackets. Only spaces may stand inside the brackets.
-/

def actionKeyStart : String := "x-fir-"

/-- An action key taken apart. A key without parameters and one with an empty
list read alike. -/
structure ActionKey where
  name : String
  params : List String
  deriving DecidableEq, Repr

namespace ActionKey

/-- What a reader of action keys can be waiting for. -/
inductive Expectation where
  | name
  | parameter
  | parameters
  | endOfKey
  deriving DecidableEq, Repr

/-- Why a text is no action key. -/
inductive Fault where
  | missingStart
  | expected (expectation : Expectation) (offset : Nat)
  deriving DecidableEq, Repr

/-- What was expected, in the words of error messages. -/
def Expectation.describe : Expectation → String
  | .name => "name"
  | .parameter => "param"
  | .parameters => "param or param_list"
  | .endOfKey => "EOI"

def Fault.message : Fault → String
  | .missingStart => s!"missing '{actionKeyStart}' prefix"
  | .expected expectation offset => s!"expected {expectation.describe} at offset {offset}"

/-- The text after its leading spaces. Other blanks are no part of a key. -/
def skipSpaces (text : List Char) : List Char :=
  text.dropWhile (· == ' ')

theorem skipSpaces_length (text : List Char) : (skipSpaces text).length ≤ text.length :=
  (List.dropWhile_sublist _).length_le

/-- The offset in a key of the given length at which a rest of it begins. -/
def offsetOf (total : Nat) (rest : List Char) : Nat :=
  total - Text.byteLength rest

/-- Reads a parameter in brackets, the spaces after it, and all that follows
up to the closing bracket. An unfinished list is reported where it opens. -/
def readParams (total opened : Nat) (text : List Char) :
    Except Fault (List String × List Char) :=
  match _found : Text.takeIdentifier text with
  | ([], rest) => .error (.expected .parameter (offsetOf total rest))
  | (c :: name, rest) =>
      match _spaces : skipSpaces rest with
      | ',' :: more => do
          let (params, after) ← readParams total opened (skipSpaces more)
          return (String.ofList (c :: name) :: params, after)
      | ']' :: after => .ok ([String.ofList (c :: name)], after)
      | _ => .error (.expected .parameters opened)
termination_by text.length
decreasing_by
  have whole := congrArg List.length (Text.takeIdentifier_append text)
  have kept := skipSpaces_length rest
  have left := skipSpaces_length more
  simp only [_found, _spaces, List.length_append, List.length_cons] at whole kept
  omega

/-- Reads what stands in brackets, the closing bracket included. -/
def readList (total opened : Nat) (text : List Char) : Except Fault (List String × List Char) :=
  match skipSpaces text with
  | ']' :: after => .ok ([], after)
  | inside => readParams total opened inside

def readParameters (total : Nat) : List Char → Except Fault (List String × List Char)
  | '[' :: inside => readList total (offsetOf total ('[' :: inside)) inside
  | text =>
      match Text.takeIdentifier text with
      | ([], rest) => .error (.expected .parameters (offsetOf total rest))
      | (name, rest) => .ok ([String.ofList name], rest)

def parse (key : String) : Except Fault ActionKey :=
  let total := Text.byteLength key.toList
  match Text.afterStart? actionKeyStart key with
  | none => .error .missingStart
  | some text =>
      match Text.takeIdentifier text.toList with
      | ([], rest) => .error (.expected .name (offsetOf total rest))
      | (name, []) => .ok ⟨String.ofList name, []⟩
      | (name, ':' :: text) => do
          match ← readParameters total text with
          | (params, []) => return ⟨String.ofList name, params⟩
          | (_, rest) => .error (.expected .endOfKey (offsetOf total rest))
      | (_, rest) => .error (.expected .endOfKey (offsetOf total rest))

end ActionKey

end EventBindings
