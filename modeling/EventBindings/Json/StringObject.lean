import EventBindings.Text.Blank

namespace EventBindings.Json

/-!
Reading a JSON object whose members are all strings, with nothing before or
after it but white space. Escapes of code units have to form whole characters,
and control characters have to be escaped.
-/

def isSpace (c : Char) : Bool :=
  c == ' ' || c == '\t' || c == '\n' || c == '\r'

def skipSpace (text : List Char) : List Char :=
  text.dropWhile isSpace

theorem skipSpace_length (text : List Char) : (skipSpace text).length ≤ text.length :=
  (List.dropWhile_sublist _).length_le

def hexDigit? (c : Char) : Option Nat :=
  if '0' ≤ c ∧ c ≤ '9' then some (c.toNat - '0'.toNat)
  else if 'a' ≤ c ∧ c ≤ 'f' then some (c.toNat - 'a'.toNat + 10)
  else if 'A' ≤ c ∧ c ≤ 'F' then some (c.toNat - 'A'.toNat + 10)
  else none

def codeUnit? (digits : List Char) : Option Nat := do
  let values ← digits.mapM hexDigit?
  return values.foldl (fun unit value => 16 * unit + value) 0

def isHighSurrogate (unit : Nat) : Bool := 0xD800 ≤ unit && unit ≤ 0xDBFF

def isLowSurrogate (unit : Nat) : Bool := 0xDC00 ≤ unit && unit ≤ 0xDFFF

def pairedChar (high low : Nat) : Char :=
  Char.ofNat (0x10000 + 0x400 * (high - 0xD800) + (low - 0xDC00))

/-- Reads the second escape of a pair whose first unit is given. -/
def readPair (high : Nat) : List Char → Option (Char × List Char)
  | '\\' :: 'u' :: a :: b :: c :: d :: rest => do
      let low ← codeUnit? [a, b, c, d]
      if isLowSurrogate low then return (pairedChar high low, rest) else none
  | _ => none

/-- Reads the character of an escape, behind the backslash. -/
def readEscape : List Char → Option (Char × List Char)
  | '"' :: rest => some ('"', rest)
  | '\\' :: rest => some ('\\', rest)
  | '/' :: rest => some ('/', rest)
  | 'b' :: rest => some ('\x08', rest)
  | 'f' :: rest => some ('\x0c', rest)
  | 'n' :: rest => some ('\n', rest)
  | 'r' :: rest => some ('\r', rest)
  | 't' :: rest => some ('\t', rest)
  | 'u' :: a :: b :: c :: d :: rest => do
      let unit ← codeUnit? [a, b, c, d]
      if isHighSurrogate unit then readPair unit rest
      else if isLowSurrogate unit then none
      else return (Char.ofNat unit, rest)
  | _ => none

/-- Reads one character of a string, escaped or not. -/
def readCharacter : List Char → Option (Char × List Char)
  | [] => none
  | '\\' :: rest => readEscape rest
  | c :: rest => if c.toNat < 0x20 then none else some (c, rest)

theorem readPair_length {high : Nat} {text rest : List Char} {c : Char}
    (read : readPair high text = some (c, rest)) : rest.length < text.length := by
  unfold readPair at read
  split at read
  · obtain ⟨low, _, read⟩ := Option.bind_eq_some_iff.mp read
    by_cases last : isLowSurrogate low = true
    · simp only [last, if_true, pure, Option.some.injEq, Prod.mk.injEq] at read
      simp only [← read.2, List.length_cons]
      omega
    · simp [last] at read
  · contradiction

theorem readEscape_length {text rest : List Char} {c : Char}
    (read : readEscape text = some (c, rest)) : rest.length < text.length := by
  unfold readEscape at read
  split at read
  case h_9 =>
      obtain ⟨unit, _, read⟩ := Option.bind_eq_some_iff.mp read
      by_cases high : isHighSurrogate unit = true
      · simp only [high, if_true] at read
        have shorter := readPair_length read
        simp only [List.length_cons]
        omega
      · by_cases low : isLowSurrogate unit = true
        · simp [high, low] at read
        · simp only [high, low, if_false, Bool.false_eq_true, pure, Option.some.injEq,
            Prod.mk.injEq] at read
          simp only [← read.2, List.length_cons]
          omega
  case h_10 => contradiction
  all_goals
    cases read
    simp

theorem readCharacter_length {text rest : List Char} {c : Char}
    (read : readCharacter text = some (c, rest)) : rest.length < text.length := by
  unfold readCharacter at read
  split at read
  · contradiction
  · have shorter := readEscape_length read
    simp only [List.length_cons]
    omega
  · split at read
    · contradiction
    · cases read
      simp

/-- Reads the characters of a string and the quotation mark that ends it. -/
def readString (text : List Char) : Option (List Char × List Char) :=
  match text with
  | '"' :: rest => some ([], rest)
  | text =>
      match _read : readCharacter text with
      | none => none
      | some (c, rest) => do
          let (characters, after) ← readString rest
          return (c :: characters, after)
termination_by text.length
decreasing_by exact readCharacter_length _read

theorem readString_length {text content rest : List Char}
    (read : readString text = some (content, rest)) : rest.length < text.length := by
  fun_induction readString text generalizing content with
  | case1 =>
      cases read
      simp
  | case2 => contradiction
  | case3 text _ c more taken ih =>
      obtain ⟨⟨characters, after⟩, found, read⟩ := Option.bind_eq_some_iff.mp read
      cases read
      have shorter := readCharacter_length taken
      have shortest := ih found
      omega

/-- Reads a string, its quotation marks included. -/
def readQuoted : List Char → Option (String × List Char)
  | '"' :: text => do
      let (content, rest) ← readString text
      return (String.ofList content, rest)
  | _ => none

theorem readQuoted_length {text rest : List Char} {content : String}
    (read : readQuoted text = some (content, rest)) : rest.length < text.length := by
  unfold readQuoted at read
  split at read
  · obtain ⟨⟨characters, after⟩, found, read⟩ := Option.bind_eq_some_iff.mp read
    cases read
    have shorter := readString_length found
    simp only [List.length_cons]
    omega
  · contradiction

/-- Reads the colon and the string after the name of a member. -/
def readValue (text : List Char) : Option (String × List Char) :=
  match skipSpace text with
  | ':' :: rest => readQuoted (skipSpace rest)
  | _ => none

theorem readValue_length {text rest : List Char} {value : String}
    (read : readValue text = some (value, rest)) : rest.length < text.length := by
  have skipped := skipSpace_length text
  unfold readValue at read
  split at read
  · rename_i more spaces
    have shorter := readQuoted_length read
    have kept := skipSpace_length more
    rw [spaces, List.length_cons] at skipped
    omega
  · contradiction

/-- Reads members up to the brace that ends the object. -/
def readMembers (text : List Char) : Option (List (String × String) × List Char) :=
  match _named : readQuoted text with
  | none => none
  | some (name, more) =>
      match _valued : readValue more with
      | none => none
      | some (value, rest) =>
          match _spaces : skipSpace rest with
          | ',' :: next => do
              let (members, after) ← readMembers (skipSpace next)
              return ((name, value) :: members, after)
          | '}' :: after => some ([(name, value)], after)
          | _ => none
termination_by text.length
decreasing_by
  have first := readQuoted_length _named
  have second := readValue_length _valued
  have third := skipSpace_length rest
  have fourth := skipSpace_length next
  rw [_spaces, List.length_cons] at third
  omega

/-- Reads an object, from the brace that begins it to the one that ends it. -/
def readObject : List Char → Option (List (String × String) × List Char)
  | '{' :: text =>
      match skipSpace text with
      | '}' :: after => some ([], after)
      | inside => readMembers inside
  | _ => none

/-- The members of the object that a text stands for, in the order in which
they are written. -/
def parseStringObject (text : String) : Option (List (String × String)) := do
  let (members, after) ← readObject (skipSpace text.toList)
  if (skipSpace after).isEmpty then return members else none

end EventBindings.Json
