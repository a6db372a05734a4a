import EventBindings.ActionAttribute
import EventBindings.Proofs.Text.Start
import EventBindings.Proofs.Text.Trimming
import EventBindings.Proofs.Token.Spelling

namespace EventBindings

/-!
Action keys that are read: their parameters are identifiers, and so none of
them changes when blanks are trimmed.
-/

namespace ActionKey

theorem named_of_readParams {total opened : Nat} {text rest : List Char} {params : List String}
    (read : readParams total opened text = .ok (params, rest)) :
    ∀ param ∈ params, IsName param := by
  fun_induction readParams total opened text generalizing params rest with
  | case1 => cases read
  | case2 text c name after taken more spaces ih =>
      rw [bind_eq_ok_iff] at read
      obtain ⟨⟨others, behind⟩, readOthers, read⟩ := read
      cases read
      have first : IsName (String.ofList (c :: name)) :=
        isName_of_takeIdentifier taken (List.cons_ne_nil _ _)
      exact List.forall_mem_cons.mpr ⟨first, ih readOthers⟩
  | case3 text c name after taken =>
      cases read
      exact List.forall_mem_singleton.mpr (isName_of_takeIdentifier taken (List.cons_ne_nil _ _))
  | case4 => cases read

theorem named_of_readList {total opened : Nat} {text rest : List Char} {params : List String}
    (read : readList total opened text = .ok (params, rest)) :
    ∀ param ∈ params, IsName param := by
  unfold readList at read
  split at read
  · cases read
    exact nofun
  · exact named_of_readParams read

theorem named_of_readParameters {total : Nat} {text rest : List Char} {params : List String}
    (read : readParameters total text = .ok (params, rest)) :
    ∀ param ∈ params, IsName param := by
  unfold readParameters at read
  split at read
  · exact named_of_readList read
  · split at read
    next => cases read
    next name after nonempty taken =>
      cases read
      exact List.forall_mem_singleton.mpr
        (isName_of_takeIdentifier taken nonempty)

/-- What is read of a key: a name, and what follows the name. -/
theorem parts_of_parse {key : String} {parsed : ActionKey} (read : parse key = .ok parsed) :
    ∃ text name rest, Text.afterStart? actionKeyStart key = some text ∧
      Text.takeIdentifier text.toList = (name, rest) ∧ name ≠ [] ∧
      parsed.name = String.ofList name ∧
      (rest = [] ∧ parsed.params = [] ∨ ∃ behind, rest = ':' :: behind ∧
        readParameters (Text.byteLength key.toList) behind = .ok (parsed.params, [])) := by
  unfold parse at read
  dsimp only at read
  split at read
  next => cases read
  next text started =>
    split at read
    next => cases read
    next name nonempty taken =>
      cases read
      exact ⟨text, name, [], started, taken, nonempty, rfl, .inl ⟨rfl, rfl⟩⟩
    next name behind nonempty taken =>
      obtain ⟨⟨params, rest⟩, readParams, read⟩ := bind_eq_ok_iff.mp read
      cases rest with
      | nil =>
          cases read
          exact ⟨text, name, _, started, taken, nonempty, rfl, .inr ⟨behind, rfl, readParams⟩⟩
      | cons c rest => cases read
    next => cases read

/-- The parameters of a key that is read are identifiers. -/
theorem named_of_parse {key : String} {parsed : ActionKey} (read : parse key = .ok parsed) :
    ∀ param ∈ parsed.params, IsName param := by
  obtain ⟨_, _, _, _, _, _, _, ⟨_, empty⟩ | ⟨_, _, readParams⟩⟩ := parts_of_parse read
  · rw [empty]
    exact nofun
  · exact named_of_readParameters readParams

theorem isName_of_parse {key : String} {parsed : ActionKey} (read : parse key = .ok parsed) :
    IsName parsed.name := by
  obtain ⟨_, _, _, _, taken, nonempty, same, _⟩ := parts_of_parse read
  rw [same]
  exact isName_of_takeIdentifier taken nonempty

end ActionKey

theorem IsName.trim {name : String} (isName : IsName name) : Text.trim name = name := by
  have bare := Text.trimBlanks_of_forall fun c member =>
    Text.isBlank_of_isIdentifierPart (isName.isIdentifierPart c member)
  rw [Text.trim, bare, String.ofList_toList]

namespace ActionAttribute

theorem parse_eq_ok_iff {key value : String} {attr : ActionAttribute} :
    parse key value = .ok attr ↔
      ∃ parsed, ActionKey.parse key = .ok parsed ∧
        attr = ⟨key, parsed.name, parsed.params, value⟩ := by
  unfold parse
  cases ActionKey.parse key <;> simp [eq_comm]

theorem parse_eq_error_iff {key value : String} {fault : GrammarError} :
    parse key value = .error fault ↔
      ∃ cause, ActionKey.parse key = .error cause ∧ fault = .actionKey key cause := by
  unfold parse
  cases ActionKey.parse key <;> simp [eq_comm]

theorem isName_of_parse {key value : String} {attr : ActionAttribute}
    (read : parse key value = .ok attr) : IsName attr.actionName := by
  obtain ⟨parsed, readKey, rfl⟩ := parse_eq_ok_iff.mp read
  exact ActionKey.isName_of_parse readKey

theorem named_of_parse {key value : String} {attr : ActionAttribute}
    (read : parse key value = .ok attr) : ∀ param ∈ attr.params, IsName param := by
  obtain ⟨parsed, readKey, rfl⟩ := parse_eq_ok_iff.mp read
  exact ActionKey.named_of_parse readKey

/-- No parameter is left out, and none is changed. -/
theorem givenParams_of_named {attr : ActionAttribute}
    (named : ∀ param ∈ attr.params, IsName param) : attr.givenParams = attr.params := by
  have trimmed : attr.params.map Text.trim = attr.params := by
    rw [List.map_congr_left fun param member => (named param member).trim, List.map_id']
  rw [givenParams, trimmed, List.filter_eq_self]
  intro param member
  have nonempty := (named param member).ne_nil
  simpa using nonempty

end ActionAttribute

end EventBindings
