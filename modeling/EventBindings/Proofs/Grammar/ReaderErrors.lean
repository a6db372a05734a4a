import EventBindings.Proofs.Grammar.KeyReading
import EventBindings.Proofs.Grammar.Parsing
import EventBindings.Proofs.Token.Brackets

namespace EventBindings

/-!
Where readers stop. A reader can be led from every place to an end of the text, and
if it stops it names what it has found there or the bracket that is open.
-/

/-- The errors of a reader that stops before a token, or before the end of the text.
The token or the end is at the offset, and a bracket may be open. -/
inductive StopsWith (opened : Option Nat) (found : Option Token) (offset : Nat) :
    GrammarError → Prop
  | expected (expectation : Expectation) :
      StopsWith opened found offset (.expected expectation found offset)
  | emptyExpression :
      found = some .semicolon → StopsWith opened found offset (.emptyExpression offset)
  | unclosedBracket {opener : Nat} :
      opened = some opener → StopsWith opened found offset (.unclosedBracket opener)

/-- The bracket that is open behind the token opens there, or it was open before and the
token is no bracket. -/
def StaysOpen (opened : Option Nat) (next : PlacedToken) (opener : Nat) : Prop :=
  next = ⟨.openBracket, opener⟩ ∨ next.token.isBracket = false ∧ opened = some opener

/-- What a reader makes of a token while a bracket may be open: it goes on and keeps
account of the bracket, or it stops there. -/
def Answers {σ : Type} (opened? : σ → Option Nat) (opened : Option Nat) (next : PlacedToken) :
    Except GrammarError σ → Prop
  | .ok after => ∀ opener, opened? after = some opener → StaysOpen opened next opener
  | .error fault => StopsWith opened (some next.token) next.offset fault

theorem Answers.of_unopened {σ : Type} {opened? : σ → Option Nat} {opened : Option Nat}
    {next : PlacedToken} {after : σ} (none : opened? after = none) :
    Answers opened? opened next (.ok after) := by
  intro opener isOpen
  rw [none] at isOpen
  cases isOpen

theorem Answers.bind {α σ : Type} {see : α → Option Nat} {opened? : σ → Option Nat}
    {opened : Option Nat} {next : PlacedToken} {first : Except GrammarError α}
    {rest : α → Except GrammarError σ} (answers : Answers see opened next first)
    (goesOn : ∀ a, (∀ opener, see a = some opener → StaysOpen opened next opener) →
      Answers opened? opened next (rest a)) :
    Answers opened? opened next (first >>= rest) := by
  cases first with
  | error fault => exact answers
  | ok a => exact goesOn a answers

/-- A reader that can always go on and that tells where it stops. -/
structure Pinpoints {σ ρ : Type} (step : σ → PlacedToken → Except GrammarError σ)
    (finish : σ → Nat → Except GrammarError ρ) (opened? : σ → Option Nat) : Prop where
  completes : ∀ state, ∃ more after, (∀ token ∈ more, token.Named) ∧
    LeadsBy step state more after ∧ ∀ offset, ∃ result, finish after offset = .ok result
  answers : ∀ state next, Answers opened? (opened? state) next (step state next)
  ends : ∀ {state offset fault}, finish state offset = .error fault →
    StopsWith (opened? state) none offset fault

theorem isName_x : IsName "x" := by decide

namespace EventReader

/-- The offset of the open bracket. -/
def opened? : EventReader → Option Nat
  | groupDue _ => none
  | nameDue _ opened => some opened
  | inClause _ _ _ opened => opened

/-- The events can be completed from every place. -/
theorem exists_leads_complete (reader : EventReader) :
    ∃ more finished last allowed, (∀ token ∈ more, token.Named) ∧
      Leads reader more (.inClause finished last allowed none) := by
  have close : ∀ finished last allowed opened,
      Leads (.inClause finished last allowed (some opened)) [.closeBracket]
        (.inClause finished last false none) :=
    fun finished last allowed opened =>
      .cons (fun _ => .closeBracket finished last allowed opened) rfl
  cases reader with
  | groupDue finished =>
      exact ⟨[.identifier "x"], finished, ⟨"x", none, []⟩, true, by simp [Token.Named, isName_x],
        .cons (fun _ => .name finished "x") rfl⟩
  | nameDue finished opened =>
      exact ⟨[.identifier "x", .closeBracket], finished, ⟨"x", none, []⟩, false,
        by simp [Token.Named, isName_x],
        .cons (fun _ => .nameInBracket finished opened "x") (close _ _ _ _)⟩
  | inClause finished last allowed opened =>
      cases opened with
      | none => exact ⟨[], finished, last, allowed, by simp, rfl⟩
      | some opened =>
          exact ⟨[.closeBracket], finished, last, false, by simp [Token.Named], close _ _ _ _⟩

/-- The offset of the open bracket behind a token. -/
def Step.opened? : Step → Option Nat
  | .reading next => next.opened?
  | .complete _ => none

theorem step_answers (reader : EventReader) (next : PlacedToken) :
    Answers Step.opened? reader.opened? next (reader.step next) := by
  obtain ⟨token, offset⟩ := next
  cases reader with
  | groupDue finished =>
      cases token with
      | identifier name => exact .of_unopened rfl
      | openBracket =>
          intro opener isOpen
          cases isOpen
          exact .inl rfl
      | _ => exact .expected .eventName
  | nameDue finished opened =>
      cases token with
      | identifier name => exact fun opener isOpen => .inr ⟨rfl, isOpen⟩
      | _ => exact .expected .eventName
  | inClause finished last allowed opened =>
      cases opened with
      | none => cases token <;> cases allowed <;> exact .of_unopened rfl
      | some opened =>
          cases token with
          | state outcome =>
              cases allowed with
              | true => exact fun opener isOpen => .inr ⟨rfl, isOpen⟩
              | false => exact .unclosedBracket rfl
          | modifier | comma =>
              cases allowed <;> exact fun opener isOpen => .inr ⟨rfl, isOpen⟩
          | closeBracket => cases allowed <;> exact .of_unopened rfl
          | _ => cases allowed <;> exact .unclosedBracket rfl

theorem ends {reader : EventReader} {offset : Nat} {fault : GrammarError}
    (ended : reader.finish offset = .error fault) :
    StopsWith reader.opened? none offset fault := by
  cases reader with
  | groupDue finished =>
      cases ended
      exact .expected .eventName
  | nameDue finished opened =>
      cases ended
      exact .expected .eventName
  | inClause finished last allowed opened =>
      cases opened with
      | none => cases ended
      | some opened =>
          cases ended
          exact .unclosedBracket rfl

end EventReader

namespace ExpressionReader

def opened? (reader : ExpressionReader) : Option Nat :=
  match reader.place with
  | .inEvents events => events.opened?
  | _ => none

theorem completes (reader : ExpressionReader) :
    ∃ more after, (∀ token ∈ more, token.Named) ∧ LeadsBy step reader more after ∧
      ∀ offset, ∃ expressions, after.finish offset = .ok expressions := by
  cases place : reader.place with
  | inEvents events =>
      obtain ⟨more, finished, last, allowed, named, leads⟩ := events.exists_leads_complete
      have read := leads.inside (step_moveTo_inEvents reader)
      rw [moveTo_of_place place] at read
      exact ⟨more, _, named, read, finish_of_complete (.inl (.inl ⟨finished, last, allowed, rfl⟩))⟩
  | afterSemicolon =>
      refine ⟨[], reader, by simp, LeadsBy.nil reader, fun offset => ⟨reader.finished, ?_⟩⟩
      simp only [finish, place]
  | templateDue events =>
      have read :
          LeadsBy step reader [.identifier "x"] (reader.moveTo (.afterTemplate events "x")) :=
        LeadsBy.single fun _ => by simp only [step, place]
      exact ⟨_, _, by simp [Token.Named, isName_x], read,
        finish_of_complete (.inl (.inr ⟨events, "x", rfl⟩))⟩
  | afterTemplate events template =>
      exact ⟨[], reader, by simp, LeadsBy.nil reader,
        finish_of_complete (.inl (.inr ⟨events, template, place⟩))⟩
  | actionDue events template =>
      have read : LeadsBy step reader [.identifier "x"]
          (reader.moveTo (.afterAction ⟨events, template, some (.named "x")⟩)) :=
        LeadsBy.single fun _ => by simp only [step, place]
      exact ⟨_, _, by simp [Token.Named, isName_x], read, finish_of_complete (.inr ⟨_, rfl⟩)⟩
  | afterAction binding =>
      exact ⟨[], reader, by simp, LeadsBy.nil reader, finish_of_complete (.inr ⟨binding, place⟩)⟩

theorem stepEvents_answers (reader : ExpressionReader) (events : EventReader)
    (next : PlacedToken) : Answers opened? events.opened? next (reader.stepEvents events next) := by
  refine (events.step_answers next).bind fun made account => ?_
  cases made with
  | reading inside => exact account
  | complete clauses =>
      obtain ⟨token, offset⟩ := next
      cases token with
      | arrow | doubleArrow | semicolon => exact .of_unopened rfl
      | _ => exact .expected .separator

theorem stepEnded_answers (reader : ExpressionReader) (binding : Binding) (next : PlacedToken) :
    Answers opened? none next (reader.stepEnded binding next) := by
  obtain ⟨token, offset⟩ := next
  cases token with
  | comma | semicolon => exact .of_unopened rfl
  | _ => exact .expected .separator

theorem step_answers (reader : ExpressionReader) (next : PlacedToken) :
    Answers opened? reader.opened? next (reader.step next) := by
  obtain ⟨finished, bindings, place⟩ := reader
  cases place with
  | inEvents events => exact stepEvents_answers _ events next
  | afterSemicolon =>
      obtain ⟨token, offset⟩ := next
      cases token with
      | semicolon => exact .emptyExpression rfl
      | _ => exact stepEvents_answers _ .start _
  | templateDue events =>
      obtain ⟨token, offset⟩ := next
      cases token with
      | identifier name => exact .of_unopened rfl
      | _ => exact .expected .templateAfterArrow
  | afterTemplate events template =>
      obtain ⟨token, offset⟩ := next
      cases token with
      | doubleArrow => exact .of_unopened rfl
      | _ =>
          exact stepEnded_answers ⟨finished, bindings, .afterTemplate events template⟩
            ⟨events, some template, none⟩ _
  | actionDue events template =>
      obtain ⟨token, offset⟩ := next
      cases token with
      | identifier name | call name => exact .of_unopened rfl
      | _ => exact .expected .actionAfterArrow
  | afterAction binding => exact stepEnded_answers _ binding next

theorem ends {reader : ExpressionReader} {offset : Nat} {fault : GrammarError}
    (ended : reader.finish offset = .error fault) :
    StopsWith reader.opened? none offset fault := by
  obtain ⟨finished, bindings, place⟩ := reader
  cases place with
  | inEvents events =>
      obtain failed | ⟨clauses, _, returned⟩ := bind_eq_error_iff.mp ended
      · exact EventReader.ends failed
      · cases returned
  | templateDue events =>
      cases ended
      exact .expected .templateAfterArrow
  | actionDue events template =>
      cases ended
      exact .expected .actionAfterArrow
  | _ => cases ended

theorem pinpoints : Pinpoints step finish opened? :=
  ⟨completes, step_answers, ends⟩

end ExpressionReader

namespace KeyReader

def opened? : KeyReader → Option Nat
  | inEvents events => events.opened?
  | _ => none

theorem completes (reader : KeyReader) :
    ∃ more after, (∀ token ∈ more, token.Named) ∧ LeadsBy step reader more after ∧
      ∀ offset, ∃ binding, after.finish offset = .ok binding := by
  cases reader with
  | inEvents events =>
      obtain ⟨more, finished, last, allowed, named, leads⟩ := events.exists_leads_complete
      exact ⟨more, _, named, leads.inside step_inEvents, fun _ => ⟨_, rfl⟩⟩
  | templateDue events =>
      have read :
          LeadsBy step (.templateDue events) [.identifier "x"] (.afterTemplate events "x") :=
        LeadsBy.single fun _ => rfl
      exact ⟨_, _, by simp [Token.Named, isName_x], read, fun _ => ⟨_, rfl⟩⟩
  | afterTemplate events template => exact ⟨[], _, by simp, LeadsBy.nil _, fun _ => ⟨_, rfl⟩⟩

theorem step_answers (reader : KeyReader) (next : PlacedToken) :
    Answers opened? reader.opened? next (reader.step next) := by
  cases reader with
  | inEvents events =>
      refine (events.step_answers next).bind fun made account => ?_
      cases made with
      | reading inside => exact account
      | complete clauses =>
          obtain ⟨token, offset⟩ := next
          cases token with
          | doubleColon => exact .of_unopened rfl
          | _ => exact .expected .endOfKey
  | templateDue events =>
      obtain ⟨token, offset⟩ := next
      cases token with
      | identifier name => exact .of_unopened rfl
      | _ => exact .expected .templateAfterColons
  | afterTemplate events template =>
      obtain ⟨token, offset⟩ := next
      cases token with
      | modifier name => exact .of_unopened rfl
      | _ => exact .expected .endOfKey

theorem ends {reader : KeyReader} {offset : Nat} {fault : GrammarError}
    (ended : reader.finish offset = .error fault) :
    StopsWith reader.opened? none offset fault := by
  cases reader with
  | inEvents events =>
      obtain failed | ⟨clauses, _, returned⟩ := bind_eq_error_iff.mp ended
      · exact EventReader.ends failed
      · cases returned
  | templateDue events =>
      cases ended
      exact .expected .templateAfterColons
  | afterTemplate events template => cases ended

theorem pinpoints : Pinpoints step finish opened? :=
  ⟨completes, step_answers, ends⟩

end KeyReader

end EventBindings
