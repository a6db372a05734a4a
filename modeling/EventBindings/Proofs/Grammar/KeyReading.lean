import EventBindings.Proofs.Fallible
import EventBindings.Proofs.Grammar.EventRun
import EventBindings.Proofs.Token.Spelling

namespace EventBindings

/-!
How binding keys are read: a key is accepted exactly if its tokens have a tree,
and is read as what the tree means.
-/

theorem addModifiersToLast_nil (clauses : List EventClause) :
    addModifiersToLast [] clauses = clauses := by
  rcases List.eq_nil_or_concat clauses with rfl | ⟨others, last, rfl⟩
  · rfl
  · simp [EventClause.addModifiers]

@[simp] theorem addModifierToLast_concat (modifier : String) (clauses : List EventClause)
    (last : EventClause) :
    addModifierToLast modifier (clauses ++ [last]) = clauses ++ [last.addModifier modifier] := by
  induction clauses with
  | nil => rfl
  | cons clause clauses ih =>
      have step : addModifierToLast modifier (clause :: (clauses ++ [last])) =
          clause :: addModifierToLast modifier (clauses ++ [last]) := by
        cases clauses <;> rfl
      rw [List.cons_append, step, ih, List.cons_append]

/-- Modifiers are added to the last clause one after the other. -/
theorem addModifierToLast_addModifiersToLast (modifier : String) (modifiers : List String)
    (clauses : List EventClause) :
    addModifierToLast modifier (addModifiersToLast modifiers clauses) =
      addModifiersToLast (modifiers ++ [modifier]) clauses := by
  rcases List.eq_nil_or_concat clauses with rfl | ⟨others, last, rfl⟩
  · rfl
  · simp [EventClause.addModifiers, EventClause.addModifier]

theorem addModifiersToLast_cons (modifier : String) (modifiers : List String)
    (clauses : List EventClause) :
    addModifiersToLast (modifier :: modifiers) clauses =
      addModifiersToLast modifiers (addModifierToLast modifier clauses) := by
  rcases List.eq_nil_or_concat clauses with rfl | ⟨others, last, rfl⟩
  · rfl
  · simp [EventClause.addModifiers, EventClause.addModifier]

namespace KeyReader

/-- The tokens that lead a reader from the first event to its place. -/
inductive HasRead : KeyReader → List Token → Prop where
  | inEvents (events : EventReader) {tokens : List Token} (read : events.HasRead tokens) :
      HasRead (.inEvents events) tokens
  | templateDue (groups : List GroupTree) (nonempty : groups ≠ []) :
      HasRead (.templateDue (groups.flatMap GroupTree.clauses))
        (groupTokens groups ++ [.doubleColon])
  | afterTemplate (groups : List GroupTree) (nonempty : groups ≠ []) (name : String)
      (modifiers : List String) :
      HasRead (.afterTemplate (addModifiersToLast modifiers (groups.flatMap GroupTree.clauses)) name)
        (groupTokens groups ++ .doubleColon :: .identifier name :: modifiers.map .modifier)

theorem HasRead.step {reader after : KeyReader} {tokens : List Token} {next : PlacedToken}
    (read : HasRead reader tokens) (stepped : reader.step next = .ok after) :
    HasRead after (tokens ++ [next.token]) := by
  obtain ⟨token, offset⟩ := next
  cases read with
  | inEvents events read =>
      obtain ⟨made, eventStep, stepped⟩ := bind_eq_ok_iff.mp stepped
      cases made with
      | reading inside =>
          cases stepped
          exact .inEvents _ (read.advance (EventReader.advance_of_step eventStep))
      | complete clauses =>
          obtain ⟨before, last, allowed, rfl, rfl⟩ := EventReader.complete_of_step eventStep
          obtain ⟨groups, nonempty, clauses, rfl⟩ := read.groups
          rw [← clauses] at stepped
          cases token with
          | doubleColon =>
              cases stepped
              exact .templateDue groups nonempty
          | _ => cases stepped
  | templateDue groups nonempty =>
      cases token with
      | identifier name =>
          cases stepped
          have tree := HasRead.afterTemplate groups nonempty name []
          simpa [addModifiersToLast_nil] using tree
      | _ => cases stepped
  | afterTemplate groups nonempty name modifiers =>
      cases token with
      | modifier added =>
          cases stepped
          have tree := HasRead.afterTemplate groups nonempty name (modifiers ++ [added])
          simpa [addModifierToLast_addModifiersToLast] using tree
      | _ => cases stepped

/-- Where the key may end, what has been read is a tree. -/
theorem HasRead.finish {reader : KeyReader} {tokens : List Token} {offset : Nat}
    {binding : Binding} (read : HasRead reader tokens)
    (ended : reader.finish offset = .ok binding) :
    ∃ tree : KeyTree, tree.tokens = tokens ∧ tree.binding = binding := by
  cases read with
  | inEvents events read =>
      obtain ⟨clauses, complete, ended⟩ := bind_eq_ok_iff.mp ended
      cases ended
      obtain ⟨before, last, allowed, rfl, rfl⟩ := EventReader.complete_of_finish complete
      obtain ⟨groups, nonempty, clauses, rfl⟩ := read.groups
      refine ⟨⟨groups, nonempty, none⟩, by simp [KeyTree.tokens], ?_⟩
      rw [← clauses]
      simp [KeyTree.binding, addModifiersToLast_nil]
  | templateDue groups nonempty => cases ended
  | afterTemplate groups nonempty name modifiers =>
      cases ended
      exact ⟨⟨groups, nonempty, some (name, modifiers)⟩, rfl, rfl⟩

theorem leadsBy_modifiers (events : List EventClause) (name : String) (modifiers : List String) :
    LeadsBy step (.afterTemplate events name) (modifiers.map .modifier)
      (.afterTemplate (addModifiersToLast modifiers events) name) := by
  induction modifiers generalizing events with
  | nil =>
      rw [addModifiersToLast_nil]
      exact LeadsBy.nil _
  | cons modifier modifiers ih =>
      have first : LeadsBy step (.afterTemplate events name) [.modifier modifier]
          (.afterTemplate (addModifierToLast modifier events) name) :=
        LeadsBy.single fun _ => rfl
      rw [addModifiersToLast_cons]
      exact first.append (ih (addModifierToLast modifier events))

theorem step_inEvents {events after : EventReader} {next : PlacedToken}
    (stepped : events.step next = .ok (.reading after)) :
    step (.inEvents events) next = .ok (.inEvents after) := by
  simp [step, stepped]

theorem finish_of_tree (tree : KeyTree) (offset : Nat) :
    ∃ after, LeadsBy step (.inEvents .start) tree.tokens after ∧
      after.finish offset = .ok tree.binding := by
  obtain ⟨groups, nonempty, template⟩ := tree
  obtain ⟨before, last, allowed, clauses, inGroups⟩ := EventReader.leads_groups [] nonempty
  rw [List.nil_append] at clauses
  have readGroups := inGroups.inside step_inEvents
  cases template with
  | none =>
      have tokens : KeyTree.tokens ⟨groups, nonempty, none⟩ = groupTokens groups := by
        simp [KeyTree.tokens]
      refine ⟨_, tokens ▸ readGroups, ?_⟩
      simp [finish, EventReader.finish, KeyTree.binding, addModifiersToLast_nil, clauses]
  | some written =>
      obtain ⟨name, modifiers⟩ := written
      have colons : LeadsBy step (.inEvents (.inClause before last allowed none)) [.doubleColon]
          (.templateDue (before ++ [last])) := by
        apply LeadsBy.single
        intro offset
        cases allowed <;> rfl
      have named : LeadsBy step (.templateDue (before ++ [last])) [.identifier name]
          (.afterTemplate (before ++ [last]) name) :=
        LeadsBy.single fun _ => rfl
      have readTemplate := (colons.append named).append
        (leadsBy_modifiers (before ++ [last]) name modifiers)
      refine ⟨_, readGroups.append readTemplate, ?_⟩
      simp [finish, KeyTree.binding, clauses]

end KeyReader

theorem readBindingKey_eq_ok_iff {placed : List PlacedToken} {endOffset : Nat}
    {binding : Binding} :
    readBindingKey placed endOffset = .ok binding ↔
      ∃ tree : KeyTree, tree.tokens = placed.map PlacedToken.token ∧ tree.binding = binding := by
  constructor
  · intro read
    obtain ⟨after, run, ended⟩ := bind_eq_ok_iff.mp read
    have hasRead := read_of_run KeyReader.HasRead.step
      (KeyReader.HasRead.inEvents _ EventReader.hasRead_start) run
    rw [List.nil_append] at hasRead
    exact hasRead.finish ended
  · intro given
    obtain ⟨tree, tokens, rfl⟩ := given
    obtain ⟨after, leads, ended⟩ := KeyReader.finish_of_tree tree endOffset
    simp only [readBindingKey, leads placed tokens.symm]
    exact ended

/-- A key is read as what its tree means. -/
theorem parseBindingKey_eq_ok_iff {key : String} {binding : Binding} :
    parseBindingKey key = .ok binding ↔
      ∃ placed, tokenize key = .ok placed ∧
        ∃ tree : KeyTree, tree.tokens = placed.map PlacedToken.token ∧
          tree.binding = binding := by
  have read : ∀ placed endOffset, readBindingKey placed endOffset = .ok binding ↔
      ∃ tree : KeyTree, tree.tokens = placed.map PlacedToken.token ∧ tree.binding = binding :=
    fun _ _ => readBindingKey_eq_ok_iff
  by_cases empty : key = ""
  · subst empty
    simp only [← read _ 0, tokenize_empty]
    constructor
    · intro parsed
      cases parsed
    · intro given
      obtain ⟨placed, tokenized, readNothing⟩ := given
      cases tokenized
      cases readNothing
  · simp [parseBindingKey, empty, bind_eq_ok_iff, read]

end EventBindings
