import EventBindings.Proofs.ActionKey
import EventBindings.Element

namespace EventBindings

/-!
What a key says about its attribute, and what the attribute then gives to its
element. The beginnings of keys differ, so a key has one role only.
-/

namespace AttributeRole

theorem alternativeKey_ne_bindingKey (rest other : String) :
    alternativeKeyStart ++ rest ≠ bindingKeyStart ++ other :=
  Text.append_ne_append 0 (by decide) (by decide) (by decide) rest other

theorem actionKey_ne_bindingKey (rest other : String) :
    actionKeyStart ++ rest ≠ bindingKeyStart ++ other :=
  Text.append_ne_append 0 (by decide) (by decide) (by decide) rest other

theorem actionKey_ne_alternativeKey (rest other : String) :
    actionKeyStart ++ rest ≠ alternativeKeyStart ++ other :=
  Text.append_ne_append 2 (by decide) (by decide) (by decide) rest other

theorem renderKey_eq : renderKey = actionKeyStart ++ "render" := by decide

@[simp] theorem ofKey_renderKey : ofKey renderKey = .render := if_pos rfl

@[simp] theorem ofKey_bindingKey (rest : String) :
    ofKey (bindingKeyStart ++ rest) = .binding rest := by
  have other : bindingKeyStart ++ rest ≠ renderKey := by
    rw [renderKey_eq]
    exact (actionKey_ne_bindingKey _ _).symm
  rw [ofKey, if_neg other, Text.afterStart?_append]

@[simp] theorem ofKey_alternativeKey (rest : String) :
    ofKey (alternativeKeyStart ++ rest) = .binding rest := by
  have other : alternativeKeyStart ++ rest ≠ renderKey := by
    rw [renderKey_eq]
    exact (actionKey_ne_alternativeKey _ _).symm
  have unmarked := Text.afterStart?_eq_none_iff.mpr (alternativeKey_ne_bindingKey rest)
  rw [ofKey, if_neg other, unmarked]
  dsimp only
  rw [Text.afterStart?_append]

theorem ofKey_marked {start : String}
    (marked : start = bindingKeyStart ∨ start = alternativeKeyStart) (rest : String) :
    ofKey (start ++ rest) = .binding rest := by
  rcases marked with rfl | rfl
  · exact ofKey_bindingKey rest
  · exact ofKey_alternativeKey rest

theorem ofKey_actionKey {rest : String} (other : actionKeyStart ++ rest ≠ renderKey) :
    ofKey (actionKeyStart ++ rest) = .action := by
  have unmarked := Text.afterStart?_eq_none_iff.mpr (actionKey_ne_bindingKey rest)
  have unmarkedToo := Text.afterStart?_eq_none_iff.mpr (actionKey_ne_alternativeKey rest)
  rw [ofKey, if_neg other, unmarked]
  dsimp only
  rw [unmarkedToo]
  simp

/-- The role of a key tells how the key begins. -/
theorem ofKey_eq {key : String} {role : AttributeRole} (judged : ofKey key = role) :
    match role with
    | .render => key = renderKey
    | .binding rest => key = bindingKeyStart ++ rest ∨ key = alternativeKeyStart ++ rest
    | .action => key ≠ renderKey ∧ ∃ rest, key = actionKeyStart ++ rest
    | .foreign => True := by
  unfold ofKey at judged
  split at judged
  next same =>
    subst judged
    exact same
  next other =>
    split at judged
    next rest found =>
      subst judged
      exact .inl (Text.afterStart?_eq_some_iff.mp found)
    next =>
      split at judged
      next rest found =>
        subst judged
        exact .inr (Text.afterStart?_eq_some_iff.mp found)
      next =>
        split at judged
        next marked =>
          subst judged
          obtain ⟨rest, found⟩ := Option.isSome_iff_exists.mp marked
          exact ⟨other, rest, Text.afterStart?_eq_some_iff.mp found⟩
        next =>
          subst judged
          trivial

end AttributeRole

theorem ActionKey.exists_start_of_parse {key : String} {parsed : ActionKey}
    (read : parse key = .ok parsed) : ∃ rest, key = actionKeyStart ++ rest := by
  obtain ⟨rest, _, _, started, _⟩ := parts_of_parse read
  exact ⟨rest, Text.afterStart?_eq_some_iff.mp started⟩

namespace Contribution

variable (registry : Registry) (actions : ActionMap)

/-- What an action attribute gives to its element, once its key is read. -/
theorem ofAttribute_action {key value : String} {parsed : ActionKey} (other : key ≠ renderKey)
    (readKey : ActionKey.parse key = .ok parsed) :
    ofAttribute registry actions ⟨key, value⟩ =
      match registry.resolve? parsed.name with
      | some handler =>
          .collected <$> CollectedAction.collect handler ⟨key, parsed.name, parsed.params, value⟩
      | none => .ok .skipped := by
  obtain ⟨rest, rfl⟩ := ActionKey.exists_start_of_parse readKey
  rw [ofAttribute, AttributeRole.ofKey_actionKey other, ActionAttribute.parse]
  simp only [readKey, ok_bind]
  cases registry.resolve? parsed.name with
  | some handler => exact bind_pure_comp ..
  | none => rfl

/-- The ways in which an attribute gives something to its element, or fails to. -/
inductive Offered : Attribute → Except GrammarError Contribution → Prop
  | render (value : String) :
      Offered ⟨renderKey, value⟩ (.passed <$> compileExpression value actions)
  | bindingKey {start : String} (marked : start = bindingKeyStart ∨ start = alternativeKeyStart)
      (rest value : String) :
      Offered ⟨start ++ rest, value⟩
        ((fun compiled => .passed [compiled]) <$> compileBindingKey rest value)
  | unreadKey {rest value : String} {cause : ActionKey.Fault}
      (other : actionKeyStart ++ rest ≠ renderKey)
      (unread : ActionKey.parse (actionKeyStart ++ rest) = .error cause) :
      Offered ⟨actionKeyStart ++ rest, value⟩ (.error (.actionKey (actionKeyStart ++ rest) cause))
  | action {key value : String} {parsed : ActionKey} {handler : Handler} (other : key ≠ renderKey)
      (readKey : ActionKey.parse key = .ok parsed)
      (registered : registry.resolve? parsed.name = some handler) :
      Offered ⟨key, value⟩
        (.collected <$> CollectedAction.collect handler ⟨key, parsed.name, parsed.params, value⟩)
  | skipped (attr : Attribute) : Offered attr (.ok .skipped)

theorem offered (attr : Attribute) :
    Offered registry actions attr (ofAttribute registry actions attr) := by
  obtain ⟨key, value⟩ := attr
  cases judged : AttributeRole.ofKey key with
  | render =>
      cases AttributeRole.ofKey_eq judged
      rw [ofAttribute, judged]
      exact .render value
  | binding rest =>
      rw [ofAttribute, judged]
      rcases AttributeRole.ofKey_eq judged with rfl | rfl
      · exact .bindingKey (.inl rfl) rest value
      · exact .bindingKey (.inr rfl) rest value
  | action =>
      obtain ⟨other, rest, rfl⟩ := AttributeRole.ofKey_eq judged
      cases readKey : ActionKey.parse (actionKeyStart ++ rest) with
      | error cause =>
          have unread : ActionAttribute.parse (actionKeyStart ++ rest) value = .error _ :=
            ActionAttribute.parse_eq_error_iff.mpr ⟨cause, readKey, rfl⟩
          simp only [ofAttribute, judged, unread, error_bind]
          exact .unreadKey other readKey
      | ok parsed =>
          rw [ofAttribute_action registry actions other readKey]
          cases registered : registry.resolve? parsed.name with
          | some handler => exact .action other readKey registered
          | none => exact .skipped _
  | foreign =>
      rw [ofAttribute, judged]
      exact .skipped _

end Contribution

end EventBindings
