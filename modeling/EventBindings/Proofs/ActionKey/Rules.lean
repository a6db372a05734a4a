import EventBindings.ActionKey
import EventBindings.Proofs.Text.Start

namespace EventBindings

open Text

namespace ActionKey

/-!
The rules of action keys:

    identifier = (letter | "_") (letter | digit | "_" | "-")*
    name       = identifier
    param      = identifier
    spaces     = " "*
    list       = "[" spaces (param spaces ("," spaces param spaces)*)? "]"
    params     = ":" (list | param)
    key        = beginning "x-fir-" name params? end

A run of the rules tries alternatives in order and takes from a repetition as much as it
can. It notes the rules that have failed at the furthest place, and reports them if the key
has no reading.
-/

/-- The rules whose readings and failures are kept. -/
inductive Rule where
  | endOfKey
  | name
  | param
  | list
  | key
  deriving DecidableEq, Repr

/-- What a rule says of a text. -/
inductive Pattern where
  | beginning
  | ending
  | text (letters : List Char)
  | letter (among : Char → Bool)
  | followed (first second : Pattern)
  | either (first second : Pattern)
  | optional (inner : Pattern)
  | repeated (inner : Pattern)
  | rule (reading : Rule) (inner : Pattern)

/-- A part of a key that a rule has read, with the parts of it that rules have read. -/
structure Part where
  rule : Rule
  letters : List Char
  parts : List Part

/-- The rules that have failed at the furthest place. -/
structure Notes where
  offset : Nat := 0
  rules : List Rule := []
  deriving DecidableEq, Repr

inductive Outcome where
  | matched (parts : List Part) (rest : List Char) (notes : Notes)
  | failed (notes : Notes)

namespace Rule

/-- The rules in their order in reports. -/
def all : List Rule := [.endOfKey, .name, .param, .list, .key]

def label : Rule → String
  | endOfKey => "EOI"
  | name => "name"
  | param => "param"
  | list => "param_list"
  | key => "action_key"

end Rule

/-- The rules that are reported where something is expected. -/
def Expectation.rules : Expectation → List Rule
  | .name => [.name]
  | .parameter => [.param]
  | .parameters => [.param, .list]
  | .endOfKey => [.endOfKey]

namespace Notes

def countAt (notes : Notes) (offset : Nat) : Nat :=
  if notes.offset = offset then notes.rules.length else 0

/-- The notes after a rule has failed that began at the offset, with those from inside it.
The rule stands for the rules inside it that have failed where it began, unless there is
one only. -/
def add (notes inside : Notes) (rule : Rule) (offset : Nat) : Notes :=
  if inside.countAt offset = notes.countAt offset + 1 then inside
  else if inside.offset = offset then
    ⟨offset, inside.rules.take (notes.countAt offset) ++ [rule]⟩
  else if inside.offset < offset then ⟨offset, [rule]⟩
  else inside

def listed (notes : Notes) : List Rule :=
  Rule.all.filter (· ∈ notes.rules)

end Notes

/-- The items of an enumeration in a sentence. -/
def enumerated : List String → String
  | [] => ""
  | [one] => one
  | [one, other] => one ++ " or " ++ other
  | items => String.intercalate ", " items.dropLast ++ ", or " ++ items.getLastD ""

def Notes.message (notes : Notes) : String :=
  s!"expected {enumerated (notes.listed.map Rule.label)} at offset {notes.offset}"

namespace Outcome

def prepend (parts : List Part) : Outcome → Outcome
  | .matched others rest notes => .matched (parts ++ others) rest notes
  | .failed notes => .failed notes

@[simp] theorem prepend_nil (outcome : Outcome) : outcome.prepend [] = outcome := by
  cases outcome <;> rfl

theorem prepend_prepend (parts others : List Part) (outcome : Outcome) :
    (outcome.prepend others).prepend parts = outcome.prepend (parts ++ others) := by
  cases outcome with
  | matched inner rest notes => simp only [prepend, List.append_assoc]
  | failed notes => rfl

@[simp] theorem prepend_matched (parts others : List Part) (rest : List Char) (notes : Notes) :
    (matched others rest notes).prepend parts = matched (parts ++ others) rest notes := rfl

end Outcome

namespace Pattern

/-- Runs a pattern on what is left of a key of the given length. -/
def run (total : Nat) : Pattern → List Char → Notes → Outcome
  | .beginning, rest, notes =>
      if offsetOf total rest = 0 then .matched [] rest notes else .failed notes
  | .ending, rest, notes => if rest = [] then .matched [] rest notes else .failed notes
  | .text letters, rest, notes =>
      match letters.isPrefixOf? rest with
      | some behind => .matched [] behind notes
      | none => .failed notes
  | .letter _, [], notes => .failed notes
  | .letter among, c :: rest, notes =>
      if among c then .matched [] rest notes else .failed notes
  | .followed first second, rest, notes =>
      match run total first rest notes with
      | .matched parts middle notes => (run total second middle notes).prepend parts
      | .failed notes => .failed notes
  | .either first second, rest, notes =>
      match run total first rest notes with
      | .matched parts behind notes => .matched parts behind notes
      | .failed notes => run total second rest notes
  | .optional inner, rest, notes =>
      match run total inner rest notes with
      | .matched parts behind notes => .matched parts behind notes
      | .failed notes => .matched [] rest notes
  | .repeated inner, rest, notes =>
      match run total inner rest notes with
      | .matched parts behind notes =>
          if behind.length < rest.length then
            (run total (.repeated inner) behind notes).prepend parts
          else .matched parts behind notes
      | .failed notes => .matched [] rest notes
  | .rule reading inner, rest, notes =>
      match run total inner rest notes with
      | .matched parts behind notes =>
          .matched [⟨reading, rest.take (rest.length - behind.length), parts⟩] behind notes
      | .failed inside => .failed (notes.add inside reading (offsetOf total rest))
termination_by pattern rest => (pattern, rest.length)

def identifier : Pattern :=
  .followed (.either (.letter Char.isAlpha) (.text ['_']))
    (.repeated (.either (.either (.letter Char.isAlphanum) (.text ['_'])) (.text ['-'])))

def name : Pattern := .rule .name identifier

def param : Pattern := .rule .param identifier

def spaces : Pattern := .repeated (.text [' '])

def moreParams : Pattern :=
  .repeated (.followed (.text [',']) (.followed spaces (.followed param spaces)))

def closedParams : Pattern :=
  .followed (.optional (.followed (.followed param spaces) moreParams)) (.text [']'])

def list : Pattern := .rule .list (.followed (.text ['[']) (.followed spaces closedParams))

def params : Pattern := .followed (.text [':']) (.either list param)

def ended : Pattern := .followed (.optional params) (.rule .endOfKey .ending)

def key : Pattern :=
  .rule .key
    (.followed .beginning (.followed (.text actionKeyStart.toList) (.followed name ended)))

end Pattern

namespace Part

def name? : Part → Option String
  | ⟨.name, letters, _⟩ => some (String.ofList letters)
  | _ => none

def param? : Part → Option String
  | ⟨.param, letters, _⟩ => some (String.ofList letters)
  | _ => none

/-- The parameters in a part of a key. -/
def params : Part → List String
  | ⟨.list, _, parts⟩ => parts.filterMap param?
  | part => part.param?.toList

/-- What a key has been read as. -/
def keyOf (part : Part) : ActionKey :=
  ⟨(part.parts.filterMap name?).getLastD "", part.parts.flatMap params⟩

end Part

def Outcome.answer : Outcome → Except String ActionKey
  | .matched parts _ _ =>
      match parts.head? with
      | some part => .ok part.keyOf
      | none => .error "empty key"
  | .failed notes => .error notes.message

/-- Reads a key by the rules. -/
def parseByRules (key : String) : Except String ActionKey :=
  if actionKeyStart.toList.isPrefixOf key.toList then
    (Pattern.key.run (byteLength key.toList) key.toList {}).answer
  else .error s!"missing '{actionKeyStart}' prefix"

namespace Notes

variable {notes inside : Notes} {rule : Rule} {offset : Nat}

/-- What is expected is reported by its rules. -/
theorem listed_rules (expectation : Expectation) (offset : Nat) :
    (Notes.mk offset expectation.rules).listed = expectation.rules := by
  cases expectation <;> rfl

/-- A report is worded as the fault. -/
theorem message_of_listed {expectation : Expectation} (listed : notes.listed = expectation.rules) :
    notes.message = (Fault.expected expectation notes.offset).message := by
  have words : enumerated (expectation.rules.map Rule.label) = expectation.describe := by
    cases expectation <;> rfl
  rw [message, listed, words, Fault.message]

theorem add_of_lt (later : offset < inside.offset) : notes.add inside rule offset = inside := by
  have none : inside.countAt offset = 0 := if_neg (Nat.ne_of_gt later)
  rw [add, none, if_neg (Nat.succ_ne_zero _).symm, if_neg (Nat.ne_of_gt later),
    if_neg (Nat.lt_asymm later)]

theorem add_of_gt (earlier : inside.offset < offset) :
    notes.add inside rule offset = ⟨offset, [rule]⟩ := by
  have none : inside.countAt offset = 0 := if_neg (Nat.ne_of_lt earlier)
  rw [add, none, if_neg (Nat.succ_ne_zero _).symm, if_neg (Nat.ne_of_lt earlier), if_pos earlier]

theorem add_self (rules : List Rule) :
    (Notes.mk offset rules).add ⟨offset, rules⟩ rule offset = ⟨offset, rules ++ [rule]⟩ := by
  have count : (Notes.mk offset rules).countAt offset = rules.length := if_pos rfl
  rw [add, count, if_neg (Nat.succ_ne_self _).symm, if_pos rfl, List.take_length]

end Notes

section Offsets

variable {total : Nat} {text rest : List Char}

theorem offsetOf_le_of_suffix (behind : rest <:+ text) :
    offsetOf total text ≤ offsetOf total rest := by
  obtain ⟨before, rfl⟩ := behind
  rw [offsetOf, offsetOf, byteLength_append]
  omega

theorem offsetOf_cons_lt {c : Char} (positive : 0 < offsetOf total (c :: text)) :
    offsetOf total (c :: text) < offsetOf total text := by
  have width := c.utf8Size_pos
  rw [offsetOf, byteLength_cons] at *
  rw [offsetOf]
  omega

theorem takeIdentifier_suffix {name : List Char} (taken : takeIdentifier text = (name, rest)) :
    rest <:+ text := by
  have whole := takeIdentifier_append text
  rw [taken] at whole
  exact ⟨name, whole⟩

theorem rest_of_takeIdentifier (taken : takeIdentifier text = ([], rest)) : rest = text := by
  simpa [taken] using takeIdentifier_append text

theorem head?_ne_of_forall {c : Char} (never : ∀ rest, text ≠ c :: rest) :
    text.head? ≠ some c := by
  intro first
  obtain ⟨rest, begins⟩ := List.head?_eq_some_iff.mp first
  exact never rest begins

theorem skipSpaces_suffix (text : List Char) : skipSpaces text <:+ text :=
  List.dropWhile_suffix _

/-- What follows the mark behind a name and its spaces. -/
theorem suffix_of_spaced {c : Char} {name behind : List Char}
    (taken : takeIdentifier text = (name, behind)) (spaced : skipSpaces behind = c :: rest) :
    rest <:+ text := by
  have marked : c :: rest <:+ behind := by
    rw [← spaced]
    exact skipSpaces_suffix behind
  exact (List.suffix_cons c rest).trans (marked.trans (takeIdentifier_suffix taken))

end Offsets

namespace Pattern

variable {total : Nat}

section Composition

variable {first second inner : Pattern} {reading : Rule} {rest middle : List Char}
  {parts : List Part} {notes later : Notes}

theorem run_followed (ran : run total first rest notes = .matched parts middle later) :
    run total (.followed first second) rest notes =
      (run total second middle later).prepend parts := by
  rw [run, ran]

theorem run_followed_of_failed (ran : run total first rest notes = .failed later) :
    run total (.followed first second) rest notes = .failed later := by
  rw [run, ran]

theorem run_either (ran : run total first rest notes = .matched parts middle later) :
    run total (.either first second) rest notes = .matched parts middle later := by
  rw [run, ran]

theorem run_either_of_failed (ran : run total first rest notes = .failed later) :
    run total (.either first second) rest notes = run total second rest later := by
  rw [run, ran]

theorem run_optional (ran : run total inner rest notes = .matched parts middle later) :
    run total (.optional inner) rest notes = .matched parts middle later := by
  rw [run, ran]

theorem run_optional_of_failed (ran : run total inner rest notes = .failed later) :
    run total (.optional inner) rest notes = .matched [] rest later := by
  rw [run, ran]

theorem run_repeated (ran : run total inner rest notes = .matched parts middle later)
    (shorter : middle.length < rest.length) : run total (.repeated inner) rest notes =
      (run total (.repeated inner) middle later).prepend parts := by
  rw [run, ran]
  exact if_pos shorter

theorem run_repeated_of_failed (ran : run total inner rest notes = .failed later) :
    run total (.repeated inner) rest notes = .matched [] rest later := by
  rw [run, ran]

theorem run_rule (ran : run total inner rest notes = .matched parts middle later) :
    run total (.rule reading inner) rest notes =
      .matched [⟨reading, rest.take (rest.length - middle.length), parts⟩] middle later := by
  rw [run, ran]

theorem run_rule_of_failed (ran : run total inner rest notes = .failed later) :
    run total (.rule reading inner) rest notes =
      .failed (notes.add later reading (offsetOf total rest)) := by
  rw [run, ran]

end Composition

section Letters

theorem run_text_singleton (c : Char) (rest : List Char) (notes : Notes) :
    run total (.text [c]) rest notes = run total (.letter (c == ·)) rest notes := by
  cases rest with
  | nil => simp [run, List.isPrefixOf?]
  | cons d rest =>
      rw [run, run, List.isPrefixOf?]
      cases c == d <;> rfl

theorem run_text_of_ne {c : Char} {text : List Char} (other : text.head? ≠ some c)
    (notes : Notes) : run total (.text [c]) text notes = .failed notes := by
  rw [run_text_singleton]
  cases text with
  | nil => rw [run]
  | cons d text =>
      have differs : (c == d) = false := by
        rw [beq_eq_false_iff_ne]
        rintro rfl
        exact other rfl
      rw [run, differs]
      rfl

theorem run_text_cons (c : Char) (text : List Char) (notes : Notes) :
    run total (.text [c]) (c :: text) notes = .matched [] text notes := by
  rw [run_text_singleton, run, BEq.rfl, if_pos rfl]

theorem run_either_letter {first second : Pattern} {among others : Char → Bool}
    (reads : ∀ rest notes, run total first rest notes = run total (.letter among) rest notes)
    (readsOthers : ∀ rest notes,
      run total second rest notes = run total (.letter others) rest notes)
    (rest : List Char) (notes : Notes) : run total (.either first second) rest notes =
      run total (.letter fun c => among c || others c) rest notes := by
  rw [run, reads]
  cases rest with
  | nil => simp only [run, readsOthers]
  | cons c rest =>
      simp only [run, readsOthers]
      cases among c <;> simp

theorem run_repeated_letter {pattern : Pattern} {among : Char → Bool}
    (reads : ∀ rest notes, run total pattern rest notes = run total (.letter among) rest notes)
    (rest : List Char) (notes : Notes) :
    run total (.repeated pattern) rest notes = .matched [] (rest.dropWhile among) notes := by
  induction rest with
  | nil => simp [run, reads]
  | cons c rest ih =>
      rw [run, reads, run]
      cases read : among c with
      | false => simp [read]
      | true => simp [read, ih]

theorem run_spaces (rest : List Char) (notes : Notes) :
    run total spaces rest notes = .matched [] (skipSpaces rest) notes := by
  have same : (' ' == ·) = (· == ' ') := by
    funext c
    exact BEq.comm
  rw [spaces, run_repeated_letter (run_text_singleton ' '), same, skipSpaces]

theorem run_identifier_start (rest : List Char) (notes : Notes) :
    run total (.either (.letter Char.isAlpha) (.text ['_'])) rest notes =
      run total (.letter isIdentifierStart) rest notes := by
  have same : (fun c : Char => c.isAlpha || '_' == c) = isIdentifierStart := by
    funext c
    rw [isIdentifierStart, BEq.comm]
  rw [run_either_letter (fun _ _ => rfl) (run_text_singleton '_'), same]

theorem run_identifier_part (rest : List Char) (notes : Notes) :
    run total (.either (.either (.letter Char.isAlphanum) (.text ['_'])) (.text ['-'])) rest notes =
      run total (.letter isIdentifierPart) rest notes := by
  have same : (fun c : Char => c.isAlphanum || '_' == c || '-' == c) = isIdentifierPart := by
    funext c
    rw [isIdentifierPart, BEq.comm, @BEq.comm _ _ _ '-']
  rw [run_either_letter (run_either_letter (fun _ _ => rfl) (run_text_singleton '_'))
    (run_text_singleton '-'), same]

end Letters

section Names

variable {text name rest : List Char} {c : Char}

theorem run_identifier_of_none (taken : takeIdentifier text = ([], rest)) (notes : Notes) :
    run total identifier text notes = .failed notes := by
  apply run_followed_of_failed
  rw [run_identifier_start]
  cases text with
  | nil => rw [run]
  | cons c text =>
      rw [run]
      cases start : isIdentifierStart c with
      | false => rfl
      | true => simp [takeIdentifier, start] at taken

theorem run_identifier (taken : takeIdentifier text = (c :: name, rest)) (notes : Notes) :
    run total identifier text notes = .matched [] rest notes := by
  cases text with
  | nil => cases taken
  | cons d text =>
      cases start : isIdentifierStart d with
      | false => simp [takeIdentifier, start] at taken
      | true =>
          have behind : text.dropWhile isIdentifierPart = rest := by
            simp only [takeIdentifier, start, if_true, Prod.mk.injEq] at taken
            exact taken.2
          have started : run total (.either (.letter Char.isAlpha) (.text ['_']))
              (d :: text) notes = .matched [] text notes := by
            rw [run_identifier_start, run, if_pos start]
          rw [identifier, run_followed started, run_repeated_letter run_identifier_part, behind,
            Outcome.prepend_nil]

theorem run_rule_identifier_of_none (taken : takeIdentifier text = ([], rest)) (reading : Rule)
    (notes : Notes) : run total (.rule reading identifier) text notes =
      .failed (notes.add notes reading (offsetOf total text)) :=
  run_rule_of_failed (run_identifier_of_none taken notes)

theorem run_rule_identifier (taken : takeIdentifier text = (c :: name, rest)) (reading : Rule)
    (notes : Notes) : run total (.rule reading identifier) text notes =
      .matched [⟨reading, c :: name, []⟩] rest notes := by
  have whole := takeIdentifier_append text
  rw [taken] at whole
  have letters : text.take (text.length - rest.length) = c :: name := by
    rw [← whole, List.length_append, Nat.add_sub_cancel, List.take_left]
  rw [run_rule (run_identifier taken notes), letters]

theorem run_param_spaces_of_none (taken : takeIdentifier text = ([], rest)) (notes : Notes) :
    run total (.followed param spaces) text notes =
      .failed (notes.add notes .param (offsetOf total text)) :=
  run_followed_of_failed (run_rule_identifier_of_none taken .param notes)

theorem run_param_spaces (taken : takeIdentifier text = (c :: name, rest)) (notes : Notes) :
    run total (.followed param spaces) text notes =
      .matched [⟨.param, c :: name, []⟩] (skipSpaces rest) notes := by
  rw [param, run_followed (run_rule_identifier taken .param notes), run_spaces]
  rfl

end Names

end Pattern

end ActionKey

end EventBindings
