import EventBindings.Proofs.Fallible
import EventBindings.Proofs.Grammar.Tree

namespace EventBindings

/-!
How events are read. The tokens read so far are those of groups with a comma
after each and of a group that has begun, and the reader's place tells the
clauses of these groups. Conversely the tokens of any groups can be read.
-/

namespace EventClause

def isBare (clause : EventClause) : Bool :=
  clause.state.isNone && clause.modifiers.isEmpty

theorem tokens_addModifier (clause : EventClause) (name : String) :
    (clause.addModifier name).tokens = clause.tokens ++ [.modifier name] := by
  simp [tokens, addModifier]

theorem tokens_setState {clause : EventClause} (bare : clause.isBare = true)
    (outcome : EventState) :
    tokens { clause with state := some outcome } =
      clause.tokens ++ [.state outcome] := by
  obtain ⟨name, state, modifiers⟩ := clause
  simp only [isBare, Bool.and_eq_true, Option.isNone_iff_eq_none,
    List.isEmpty_iff] at bare
  obtain ⟨rfl, rfl⟩ := bare
  rfl

end EventClause

namespace EventReader

/-- The moves of a reader to another place, by the token read. The token stands
at the offset. -/
inductive Advance (offset : Nat) : EventReader → Token → EventReader → Prop where
  | name (finished : List EventClause) (name : String) :
      Advance offset (.groupDue finished) (.identifier name)
        (.inClause finished ⟨name, none, []⟩ true none)
  | openBracket (finished : List EventClause) :
      Advance offset (.groupDue finished) .openBracket (.nameDue finished offset)
  | nameInBracket (finished : List EventClause) (opened : Nat) (name : String) :
      Advance offset (.nameDue finished opened) (.identifier name)
        (.inClause finished ⟨name, none, []⟩ true (some opened))
  | state (finished : List EventClause) (last : EventClause) (opened : Option Nat)
      (outcome : EventState) :
      Advance offset (.inClause finished last true opened) (.state outcome)
        (.inClause finished { last with state := some outcome } false opened)
  | modifier (finished : List EventClause) (last : EventClause) (stateAllowed : Bool)
      (opened : Option Nat) (name : String) :
      Advance offset (.inClause finished last stateAllowed opened) (.modifier name)
        (.inClause finished (last.addModifier name) false opened)
  | commaInBracket (finished : List EventClause) (last : EventClause) (stateAllowed : Bool)
      (opened : Nat) :
      Advance offset (.inClause finished last stateAllowed (some opened)) .comma
        (.nameDue (finished ++ [last]) opened)
  | closeBracket (finished : List EventClause) (last : EventClause) (stateAllowed : Bool)
      (opened : Nat) :
      Advance offset (.inClause finished last stateAllowed (some opened)) .closeBracket
        (.inClause finished last false none)
  | comma (finished : List EventClause) (last : EventClause) (stateAllowed : Bool) :
      Advance offset (.inClause finished last stateAllowed none) .comma
        (.groupDue (finished ++ [last]))

theorem Advance.step {offset : Nat} {reader after : EventReader} {token : Token}
    (moved : Advance offset reader token after) :
    reader.step ⟨token, offset⟩ = .ok (.reading after) := by
  cases moved with
  | modifier finished last stateAllowed opened name => cases stateAllowed <;> rfl
  | commaInBracket finished last stateAllowed opened => cases stateAllowed <;> rfl
  | closeBracket finished last stateAllowed opened => cases stateAllowed <;> rfl
  | comma finished last stateAllowed => cases stateAllowed <;> rfl
  | _ => rfl

theorem advance_of_step {reader after : EventReader} {next : PlacedToken}
    (stepped : reader.step next = .ok (.reading after)) :
    Advance next.offset reader next.token after := by
  obtain ⟨token, offset⟩ := next
  cases reader with
  | groupDue finished =>
      cases token <;> simp only [step, reduceCtorEq, Except.ok.injEq, Step.reading.injEq] at stepped
      all_goals
        subst stepped
        constructor
  | nameDue finished opened =>
      cases token <;> simp only [step, reduceCtorEq, Except.ok.injEq, Step.reading.injEq] at stepped
      subst stepped
      constructor
  | inClause finished last stateAllowed opened =>
      cases token <;> cases stateAllowed <;> cases opened <;>
        simp only [step, reduceCtorEq, Except.ok.injEq, Step.reading.injEq] at stepped
      all_goals
        subst stepped
        constructor

/-- Only a group that is complete can end the events. -/
theorem complete_of_step {reader : EventReader} {events : List EventClause} {next : PlacedToken}
    (stepped : reader.step next = .ok (.complete events)) :
    ∃ finished last stateAllowed, reader = .inClause finished last stateAllowed none ∧
      events = finished ++ [last] := by
  obtain ⟨token, offset⟩ := next
  cases reader with
  | groupDue finished => cases token <;> simp [step] at stepped
  | nameDue finished opened => cases token <;> simp [step] at stepped
  | inClause finished last stateAllowed opened =>
      cases token <;> cases stateAllowed <;> cases opened <;> simp [step] at stepped
      all_goals exact ⟨finished, last, _, rfl, stepped.symm⟩

theorem complete_of_finish {reader : EventReader} {events : List EventClause} {offset : Nat}
    (ended : reader.finish offset = .ok events) :
    ∃ finished last stateAllowed, reader = .inClause finished last stateAllowed none ∧
      events = finished ++ [last] := by
  cases reader with
  | groupDue finished => simp [finish] at ended
  | nameDue finished opened => simp [finish] at ended
  | inClause finished last stateAllowed opened =>
      cases opened <;> simp [finish] at ended
      exact ⟨finished, last, stateAllowed, rfl, ended.symm⟩

/-- The tokens that lead a reader from the first event to its place. -/
inductive HasRead : EventReader → List Token → Prop where
  | groupDue (groups : List GroupTree) :
      HasRead (.groupDue (groups.flatMap GroupTree.clauses))
        (followed .comma (groups.map GroupTree.tokens))
  | nameDue (groups : List GroupTree) (clauses : List EventClause) (opened : Nat) :
      HasRead (.nameDue (groups.flatMap GroupTree.clauses ++ clauses) opened)
        (followed .comma (groups.map GroupTree.tokens) ++
          .openBracket :: followed .comma (clauses.map EventClause.tokens))
  | single (groups : List GroupTree) (last : EventClause) (stateAllowed : Bool)
      (bare : last.isBare = stateAllowed) :
      HasRead (.inClause (groups.flatMap GroupTree.clauses) last stateAllowed none)
        (followed .comma (groups.map GroupTree.tokens) ++ last.tokens)
  | inBracket (groups : List GroupTree) (clauses : List EventClause) (last : EventClause)
      (stateAllowed : Bool) (bare : last.isBare = stateAllowed) (opened : Nat) :
      HasRead (.inClause (groups.flatMap GroupTree.clauses ++ clauses) last stateAllowed
          (some opened))
        (followed .comma (groups.map GroupTree.tokens) ++
          .openBracket :: (followed .comma (clauses.map EventClause.tokens) ++ last.tokens))
  | bracketed (groups : List GroupTree) (clauses : List EventClause) (last : EventClause)
      (modifiers : List String) :
      HasRead (.inClause (groups.flatMap GroupTree.clauses ++ clauses)
          (last.addModifiers modifiers) false none)
        (followed .comma (groups.map GroupTree.tokens) ++
          .openBracket :: (followed .comma (clauses.map EventClause.tokens) ++ last.tokens ++
            .closeBracket :: modifiers.map .modifier))

theorem hasRead_start : HasRead .start [] :=
  .groupDue []

def bracketGroup (clauses : List EventClause) (last : EventClause) (modifiers : List String) :
    GroupTree :=
  .bracketed (clauses ++ [last]) (by simp) modifiers

theorem HasRead.advance {offset : Nat} {reader after : EventReader} {token : Token}
    {tokens : List Token} (read : HasRead reader tokens)
    (moved : Advance offset reader token after) : HasRead after (tokens ++ [token]) := by
  cases read with
  | groupDue groups =>
      cases moved with
      | name _ name => exact .single groups ⟨name, none, []⟩ true rfl
      | openBracket => simpa using HasRead.nameDue groups [] offset
  | nameDue groups clauses opened =>
      cases moved with
      | nameInBracket _ _ name =>
          simpa [EventClause.tokens] using
            HasRead.inBracket groups clauses ⟨name, none, []⟩ true rfl opened
  | single groups last stateAllowed bare =>
      cases moved with
      | state _ _ _ outcome =>
          have tree := HasRead.single groups { last with state := some outcome } false
            (by simp [EventClause.isBare])
          simpa [EventClause.tokens_setState bare] using tree
      | modifier _ _ _ _ name =>
          have tree := HasRead.single groups (last.addModifier name) false
            (by simp [EventClause.isBare, EventClause.addModifier])
          simpa [EventClause.tokens_addModifier] using tree
      | comma =>
          have tree := HasRead.groupDue (groups ++ [.single last])
          simpa [followed_concat, GroupTree.tokens, GroupTree.clauses] using tree
  | inBracket groups clauses last stateAllowed bare opened =>
      cases moved with
      | state _ _ _ outcome =>
          have tree := HasRead.inBracket groups clauses { last with state := some outcome } false
            (by simp [EventClause.isBare]) opened
          simpa [EventClause.tokens_setState bare] using tree
      | modifier _ _ _ _ name =>
          have tree := HasRead.inBracket groups clauses (last.addModifier name) false
            (by simp [EventClause.isBare, EventClause.addModifier]) opened
          simpa [EventClause.tokens_addModifier] using tree
      | commaInBracket =>
          have tree := HasRead.nameDue groups (clauses ++ [last]) opened
          simpa [followed_concat] using tree
      | closeBracket =>
          have tree := HasRead.bracketed groups clauses last []
          simpa [EventClause.addModifiers] using tree
  | bracketed groups clauses last modifiers =>
      cases moved with
      | modifier _ _ _ _ name =>
          have tree := HasRead.bracketed groups clauses last (modifiers ++ [name])
          simpa [EventClause.addModifiers, EventClause.addModifier] using tree
      | comma =>
          have tree := HasRead.groupDue (groups ++ [bracketGroup clauses last modifiers])
          simpa [followed_concat, separated_concat, GroupTree.tokens, GroupTree.clauses,
            bracketGroup] using tree

/-- Where the events may end, the tokens are those of groups. -/
theorem HasRead.groups {finished : List EventClause} {last : EventClause} {stateAllowed : Bool}
    {tokens : List Token} (read : HasRead (.inClause finished last stateAllowed none) tokens) :
    ∃ groups : List GroupTree, groups ≠ [] ∧ groups.flatMap GroupTree.clauses = finished ++ [last] ∧
      groupTokens groups = tokens := by
  cases read with
  | single groups =>
      refine ⟨groups ++ [.single last], by simp, by simp [GroupTree.clauses], ?_⟩
      simp [groupTokens, separated_concat, GroupTree.tokens]
  | bracketed groups clauses last modifiers =>
      refine ⟨groups ++ [bracketGroup clauses last modifiers], by simp, ?_, ?_⟩
      · simp [GroupTree.clauses, bracketGroup]
      · simp [groupTokens, separated_concat, GroupTree.tokens, bracketGroup]

/-- Reading the tokens leads from one place to another, wherever they stand. -/
def Leads : EventReader → List Token → EventReader → Prop
  | reader, [], after => reader = after
  | reader, token :: tokens, after =>
      ∀ offset, ∃ middle, Advance offset reader token middle ∧ Leads middle tokens after

theorem Leads.append {reader middle after : EventReader} {tokens more : List Token}
    (first : Leads reader tokens middle) (second : Leads middle more after) :
    Leads reader (tokens ++ more) after := by
  induction tokens generalizing reader with
  | nil =>
      cases first
      exact second
  | cons token tokens ih =>
      intro offset
      obtain ⟨next, moved, rest⟩ := first offset
      exact ⟨next, moved, ih rest⟩

theorem Leads.cons {reader middle after : EventReader} {token : Token} {tokens : List Token}
    (moved : ∀ offset, Advance offset reader token middle) (rest : Leads middle tokens after) :
    Leads reader (token :: tokens) after :=
  fun offset => ⟨middle, moved offset, rest⟩

theorem leads_modifiers (finished : List EventClause) (last : EventClause) (stateAllowed : Bool)
    (opened : Option Nat) (modifiers : List String) :
    ∃ allowed, Leads (.inClause finished last stateAllowed opened) (modifiers.map .modifier)
      (.inClause finished (last.addModifiers modifiers) allowed opened) := by
  induction modifiers generalizing last stateAllowed with
  | nil => exact ⟨stateAllowed, by simp [Leads, EventClause.addModifiers]⟩
  | cons name modifiers ih =>
      obtain ⟨allowed, rest⟩ := ih (last.addModifier name) false
      refine ⟨allowed, Leads.cons (fun _ => .modifier finished last stateAllowed opened name) ?_⟩
      simpa [EventClause.addModifiers, EventClause.addModifier] using rest

/-- Behind its name a clause is read in and out of brackets alike. -/
theorem leads_clause (finished : List EventClause) (clause : EventClause) (opened : Option Nat) :
    ∃ allowed, Leads (.inClause finished ⟨clause.name, none, []⟩ true opened) clause.tokens.tail
      (.inClause finished clause allowed opened) := by
  obtain ⟨name, state, modifiers⟩ := clause
  cases state with
  | none =>
      obtain ⟨allowed, rest⟩ := leads_modifiers finished ⟨name, none, []⟩ true opened modifiers
      exact ⟨allowed, by simpa [EventClause.tokens, EventClause.addModifiers] using rest⟩
  | some outcome =>
      obtain ⟨allowed, rest⟩ :=
        leads_modifiers finished ⟨name, some outcome, []⟩ false opened modifiers
      exact ⟨allowed, Leads.cons (fun _ => .state finished ⟨name, none, []⟩ opened outcome)
        (by simpa [EventClause.addModifiers] using rest)⟩

theorem leads_clausesInBracket (finished clauses : List EventClause) (opened : Nat) :
    Leads (.nameDue finished opened) (followed .comma (clauses.map EventClause.tokens))
      (.nameDue (finished ++ clauses) opened) := by
  induction clauses generalizing finished with
  | nil => simp [Leads]
  | cons clause clauses ih =>
      obtain ⟨allowed, inClause⟩ := leads_clause finished clause (some opened)
      have name := Leads.cons (fun _ => .nameInBracket finished opened clause.name) inClause
      have comma := Leads.cons (fun _ => .commaInBracket finished clause allowed opened)
        (ih (finished ++ [clause]))
      simpa [followed, EventClause.tokens] using name.append comma

/-- A group is read from the place where it is due, and its clauses are those
of its tree. -/
theorem leads_group (finished : List EventClause) (group : GroupTree) :
    ∃ before last allowed, before ++ [last] = finished ++ group.clauses ∧
      Leads (.groupDue finished) group.tokens (.inClause before last allowed none) := by
  cases group with
  | single clause =>
      obtain ⟨allowed, inClause⟩ := leads_clause finished clause none
      exact ⟨finished, clause, allowed, rfl,
        Leads.cons (fun _ => .name finished clause.name) inClause⟩
  | bracketed clauses nonempty modifiers =>
      obtain ⟨others, last, rfl⟩ := exists_concat nonempty
      obtain ⟨allowed, behind⟩ := leads_modifiers (finished ++ others) last false none modifiers
      refine ⟨finished ++ others, last.addModifiers modifiers, allowed,
        by simp [GroupTree.clauses], ?_⟩
      intro opened
      obtain ⟨lastAllowed, inLast⟩ := leads_clause (finished ++ others) last (some opened)
      have name := Leads.cons
        (fun _ => .nameInBracket (finished ++ others) opened last.name) inLast
      have close := Leads.cons
        (fun _ => .closeBracket (finished ++ others) last lastAllowed opened) behind
      have inside := ((leads_clausesInBracket finished others opened).append name).append close
      refine ⟨.nameDue finished opened, .openBracket finished, ?_⟩
      simpa [separated_concat, EventClause.tokens] using inside

theorem leads_followedGroups (finished : List EventClause) (groups : List GroupTree) :
    Leads (.groupDue finished) (followed .comma (groups.map GroupTree.tokens))
      (.groupDue (finished ++ groups.flatMap GroupTree.clauses)) := by
  induction groups generalizing finished with
  | nil => simp [Leads]
  | cons group groups ih =>
      obtain ⟨before, last, allowed, clauses, inGroup⟩ := leads_group finished group
      have comma := Leads.cons (fun _ => .comma before last allowed) (ih (before ++ [last]))
      rw [clauses] at comma
      simpa [followed] using inGroup.append comma

theorem leads_groups (finished : List EventClause) {groups : List GroupTree}
    (nonempty : groups ≠ []) :
    ∃ before last allowed, before ++ [last] = finished ++ groups.flatMap GroupTree.clauses ∧
      Leads (.groupDue finished) (groupTokens groups) (.inClause before last allowed none) := by
  obtain ⟨others, group, rfl⟩ := exists_concat nonempty
  obtain ⟨before, last, allowed, clauses, inGroup⟩ :=
    leads_group (finished ++ others.flatMap GroupTree.clauses) group
  refine ⟨before, last, allowed, by simp [clauses], ?_⟩
  have all := (leads_followedGroups finished others).append inGroup
  simpa [groupTokens, separated_concat] using all

end EventReader

section Runs

variable {σ : Type} {step : σ → PlacedToken → Except GrammarError σ}

/-- What each step keeps about the tokens read so far, a run keeps. -/
theorem kept_of_run (Kept : σ → List PlacedToken → Prop)
    (keeps : ∀ {state after : σ} {before : List PlacedToken} {next : PlacedToken},
      Kept state before → step state next = .ok after → Kept after (before ++ [next]))
    {initial after : σ} {placed : List PlacedToken} (kept : Kept initial [])
    (run : placed.foldlM step initial = .ok after) : Kept after placed := by
  suffices ∀ before state, Kept state before → placed.foldlM step state = .ok after →
      Kept after (before ++ placed) from this [] initial kept run
  clear kept run
  induction placed with
  | nil =>
      intro before state kept run
      cases run
      rwa [List.append_nil]
  | cons next placed ih =>
      intro before state kept run
      obtain ⟨middle, stepped, rest⟩ := bind_eq_ok_iff.mp run
      simpa using ih (before ++ [next]) middle (keeps kept stepped) rest

/-- What each step keeps about the tokens that have been read, a run keeps, wherever
they stand. -/
theorem read_of_run {HasRead : σ → List Token → Prop}
    (keeps : ∀ {state after : σ} {tokens : List Token} {next : PlacedToken},
      HasRead state tokens → step state next = .ok after → HasRead after (tokens ++ [next.token]))
    {state after : σ} {tokens : List Token} {placed : List PlacedToken}
    (read : HasRead state tokens) (run : placed.foldlM step state = .ok after) :
    HasRead after (tokens ++ placed.map PlacedToken.token) := by
  refine kept_of_run (fun state before => HasRead state (tokens ++ before.map PlacedToken.token))
    ?_ (by simpa using read) run
  intro state after before next kept stepped
  simpa using keeps kept stepped

/-- Reading the tokens step by step leads from one state to another, wherever
they stand. -/
def LeadsBy (step : σ → PlacedToken → Except GrammarError σ) (state : σ) (tokens : List Token)
    (after : σ) : Prop :=
  ∀ placed : List PlacedToken, placed.map PlacedToken.token = tokens →
    placed.foldlM step state = .ok after

theorem LeadsBy.nil (state : σ) : LeadsBy step state [] state := by
  intro placed none
  rw [List.map_eq_nil_iff.mp none]
  rfl

theorem LeadsBy.append {state middle after : σ} {tokens more : List Token}
    (first : LeadsBy step state tokens middle) (second : LeadsBy step middle more after) :
    LeadsBy step state (tokens ++ more) after := by
  intro placed all
  obtain ⟨before, behind, rfl, beforeTokens, behindTokens⟩ := List.map_eq_append_iff.mp all
  rw [List.foldlM_append, first before beforeTokens]
  exact second behind behindTokens

theorem LeadsBy.single {state after : σ} {token : Token}
    (stepped : ∀ offset, step state ⟨token, offset⟩ = .ok after) :
    LeadsBy step state [token] after := by
  intro placed all
  obtain ⟨next, rfl, rfl⟩ := List.map_eq_singleton_iff.mp all
  rw [List.foldlM_cons, stepped next.offset]
  rfl

/-- A reader that has an event reader inside reads what that one reads. -/
theorem EventReader.Leads.inside {wrap : EventReader → σ}
    (reading : ∀ {reader after : EventReader} {next : PlacedToken},
      reader.step next = .ok (.reading after) → step (wrap reader) next = .ok (wrap after))
    {reader after : EventReader} {tokens : List Token} (leads : reader.Leads tokens after) :
    LeadsBy step (wrap reader) tokens (wrap after) := by
  induction tokens generalizing reader with
  | nil =>
      cases leads
      exact LeadsBy.nil _
  | cons token tokens ih =>
      intro placed all
      obtain ⟨next, behind, rfl, rfl, behindTokens⟩ := List.map_eq_cons_iff.mp all
      obtain ⟨middle, moved, rest⟩ := leads next.offset
      rw [List.foldlM_cons, reading moved.step]
      exact ih rest behind behindTokens

end Runs

end EventBindings
