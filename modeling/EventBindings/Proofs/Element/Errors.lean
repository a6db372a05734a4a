import EventBindings.Proofs.Element.Precedence
import EventBindings.Proofs.Element.Roles

namespace EventBindings

/-!
Which error an element reports. Attributes that fail by themselves come first,
in document order, then conflicts, then what handlers refuse, both in the order
in which the actions emit.
-/

/-- How an attribute fails by itself: a text in it does not follow its
grammar. -/
inductive Attribute.Ungrammatical (registry : Registry) : Attribute → GrammarError → Prop
  | render {value : String} {fault : GrammarError} (unread : parse value = .error fault) :
      Ungrammatical registry ⟨renderKey, value⟩ fault
  | bindingKey {start rest value : String} {fault : GrammarError}
      (marked : start = bindingKeyStart ∨ start = alternativeKeyStart)
      (unread : parseBindingKey rest = .error fault) :
      Ungrammatical registry ⟨start ++ rest, value⟩ fault
  | actionKey {rest value : String} {fault : ActionKey.Fault}
      (other : actionKeyStart ++ rest ≠ renderKey)
      (unread : ActionKey.parse (actionKeyStart ++ rest) = .error fault) :
      Ungrammatical registry ⟨actionKeyStart ++ rest, value⟩
        (.actionKey (actionKeyStart ++ rest) fault)
  | actionValue {key value : String} {parsed : ActionKey} {handler : Handler}
      {fault : GrammarError} (other : key ≠ renderKey)
      (readKey : ActionKey.parse key = .ok parsed)
      (registered : registry.resolve? parsed.name = some handler)
      (unread : parse value = .error fault) : Ungrammatical registry ⟨key, value⟩ fault

/-- The action that an attribute asks for: its key names the handler, its value
the events. -/
inductive Attribute.Collects (registry : Registry) : Attribute → CollectedAction → Prop
  | intro {key value : String} {parsed : ActionKey} {handler : Handler}
      {events : OrderedSet Event} (other : key ≠ renderKey)
      (readKey : ActionKey.parse key = .ok parsed)
      (registered : registry.resolve? parsed.name = some handler)
      (declared : declaredEvents value = .ok events) :
      Collects registry ⟨key, value⟩
        ⟨handler, ⟨key, parsed.name, parsed.params, value⟩, events⟩

theorem compileExpression_eq_error_iff {text : String} {actions : ActionMap}
    {fault : GrammarError} :
    compileExpression text actions = .error fault ↔ parse text = .error fault := by
  simp [compileExpression, bind_eq_error_iff]

theorem compileBindingKey_eq_error_iff {key value : String} {fault : GrammarError} :
    compileBindingKey key value = .error fault ↔ parseBindingKey key = .error fault := by
  simp [compileBindingKey, bind_eq_error_iff]

theorem declaredEvents_eq_error_iff {text : String} {fault : GrammarError} :
    declaredEvents text = .error fault ↔ parse text = .error fault := by
  simp [declaredEvents, bind_eq_error_iff]

theorem collect_eq_error_iff {handler : Handler} {attr : ActionAttribute} {fault : GrammarError} :
    CollectedAction.collect handler attr = .error fault ↔ parse attr.value = .error fault := by
  simp [CollectedAction.collect, bind_eq_error_iff, declaredEvents_eq_error_iff]

namespace Contribution

variable {registry : Registry} {actions : ActionMap} {attr : Attribute}

/-- An attribute gives nothing to its element exactly if it fails by itself. -/
theorem ofAttribute_eq_error_iff {fault : GrammarError} :
    ofAttribute registry actions attr = .error fault ↔ attr.Ungrammatical registry fault := by
  constructor
  case mp =>
    intro failed
    have offered := offered registry actions attr
    generalize ofAttribute registry actions attr = result at failed offered
    cases offered with
    | render value =>
        rw [map_eq_error_iff, compileExpression_eq_error_iff] at failed
        exact .render failed
    | bindingKey marked rest value =>
        rw [map_eq_error_iff, compileBindingKey_eq_error_iff] at failed
        exact .bindingKey marked failed
    | unreadKey other unread =>
        cases failed
        exact .actionKey other unread
    | action other readKey registered =>
        rw [map_eq_error_iff, collect_eq_error_iff] at failed
        exact .actionValue other readKey registered failed
    | skipped => cases failed
  case mpr =>
    intro ungrammatical
    cases ungrammatical with
    | render unread =>
        rw [ofAttribute, AttributeRole.ofKey_renderKey]
        exact map_eq_error_iff.mpr (compileExpression_eq_error_iff.mpr unread)
    | bindingKey marked unread =>
        rw [ofAttribute, AttributeRole.ofKey_marked marked]
        exact bind_eq_error_iff.mpr (.inl (compileBindingKey_eq_error_iff.mpr unread))
    | actionKey other unread =>
        rw [ofAttribute, AttributeRole.ofKey_actionKey other]
        exact bind_eq_error_iff.mpr (.inl (ActionAttribute.parse_eq_error_iff.mpr ⟨_, unread, rfl⟩))
    | actionValue other readKey registered unread =>
        rw [ofAttribute_action registry actions other readKey, registered]
        exact map_eq_error_iff.mpr (collect_eq_error_iff.mpr unread)

theorem ofAttribute_of_collects {action : CollectedAction}
    (collects : attr.Collects registry action) :
    ofAttribute registry actions attr = .ok (.collected action) := by
  obtain ⟨other, readKey, registered, declared⟩ := collects
  rw [ofAttribute_action registry actions other readKey, registered]
  simp [CollectedAction.collect, declared]

/-- Nothing is collected but the action that the attribute asks for. -/
theorem collects_of_collected? {contribution : Contribution} {action : CollectedAction}
    (contributed : ofAttribute registry actions attr = .ok contribution)
    (collected : contribution.collected? = some action) : attr.Collects registry action := by
  have offered := offered registry actions attr
  generalize ofAttribute registry actions attr = result at contributed offered
  cases offered with
  | render value =>
      obtain ⟨_, _, rfl⟩ := map_eq_ok_iff.mp contributed
      cases collected
  | bindingKey marked rest value =>
      obtain ⟨_, _, rfl⟩ := map_eq_ok_iff.mp contributed
      cases collected
  | unreadKey => cases contributed
  | action other readKey registered =>
      obtain ⟨_, collects, rfl⟩ := map_eq_ok_iff.mp contributed
      obtain ⟨events, declared, collects⟩ := bind_eq_ok_iff.mp collects
      cases collects
      cases collected
      exact .intro other readKey registered declared
  | skipped =>
      cases contributed
      cases collected

end Contribution

namespace Handler

theorem noParam_error {handler : Handler} {params : List String} {error : ActionError}
    (refused : handler.noParam params = .error error) : ∃ fault, error = .params handler fault := by
  unfold noParam at refused
  split at refused <;> cases refused
  exact ⟨_, rfl⟩

theorem oneParam_error {handler : Handler} {params : List String} {error : ActionError}
    (refused : handler.oneParam params = .error error) :
    ∃ fault, error = .params handler fault := by
  unfold oneParam at refused
  split at refused <;> cases refused
  exact ⟨_, rfl⟩

theorem optionalParam_error {handler : Handler} {params : List String} {error : ActionError}
    (refused : handler.optionalParam params = .error error) :
    ∃ fault, error = .params handler fault := by
  unfold optionalParam at refused
  split at refused <;> cases refused
  exact ⟨_, rfl⟩

theorem someParams_error {handler : Handler} {params : List String} {error : ActionError}
    (refused : handler.someParams params = .error error) :
    ∃ fault, error = .params handler fault := by
  unfold someParams at refused
  split at refused <;> cases refused
  exact ⟨_, rfl⟩

theorem insertionResolver_error {handler : Handler} {action : String} {bindings : List Binding}
    {params : List String} {error : ActionError}
    (refused : handler.insertionResolver action bindings params = .error error) :
    ∃ fault, error = .params handler fault := by
  rcases bind_eq_error_iff.mp refused with refused | ⟨template, _, refused⟩
  · exact optionalParam_error refused
  · split at refused
    · cases refused
      exact ⟨_, rfl⟩
    · cases refused

theorem scriptOf_error {attr : ActionAttribute} {error : ActionError}
    (refused : scriptOf attr = .error error) : ∃ fault, error = .params .script fault := by
  unfold scriptOf at refused
  split at refused
  · rcases bind_eq_error_iff.mp refused with refused | ⟨_, _, refused⟩
    · exact noParam_error refused
    · cases refused
  · exact oneParam_error refused

theorem mappedAction_error {actions : ActionMap} {name : String} {error : ActionError}
    (refused : mappedAction actions name = .error error) : ∃ fault, error = .lookup name fault := by
  unfold mappedAction at refused
  split at refused
  · cases refused
    exact ⟨_, rfl⟩
  · split at refused <;> cases refused
    exact ⟨_, rfl⟩

theorem resolver_error {handler : Handler} {attr : ActionAttribute} {bindings : List Binding}
    {actions : ActionMap} {error : ActionError}
    (refused : handler.resolver attr bindings actions = .error error) :
    (∃ fault, error = .params handler fault) ∨ ∃ name fault, error = .lookup name fault := by
  cases handler with
  | refresh | remove | removeParent | reset | toggleDisabled =>
      rcases bind_eq_error_iff.mp refused with refused | ⟨_, _, refused⟩
      · exact .inl (noParam_error refused)
      · cases refused
  | toggleClass | dispatch =>
      rcases bind_eq_error_iff.mp refused with refused | ⟨_, _, refused⟩
      · exact .inl (someParams_error refused)
      · cases refused
  | redirect =>
      rcases bind_eq_error_iff.mp refused with refused | ⟨_, _, refused⟩
      · exact .inl (optionalParam_error refused)
      · cases refused
  | script =>
      rcases bind_eq_error_iff.mp refused with refused | ⟨_, _, refused⟩
      · exact .inl (scriptOf_error refused)
      · cases refused
  | run =>
      rcases bind_eq_error_iff.mp refused with refused | ⟨name, _, refused⟩
      · exact .inl (oneParam_error refused)
      · rcases bind_eq_error_iff.mp refused with refused | ⟨_, _, refused⟩
        · obtain ⟨fault, rfl⟩ := mappedAction_error refused
          exact .inr ⟨name, fault, rfl⟩
        · cases refused
  | append | prepend => exact .inl (insertionResolver_error refused)

/-- Once the value is read, a handler refuses an attribute for its parameters,
for a name that the map lacks, or for an action in the value. -/
theorem translate_error {handler : Handler} {attr : ActionAttribute} {actions : ActionMap}
    {expressions : List Expression} {error : ActionError}
    (parsed : parse attr.value = .ok expressions)
    (refused : handler.translate attr actions = .error error) :
    error = .explicitAction attr.key ∨ (∃ fault, error = .params handler fault) ∨
      ∃ name fault, error = .lookup name fault := by
  rw [translate, parsed, mapError_ok, ok_bind] at refused
  split at refused
  · cases refused
    exact .inl rfl
  · rcases bind_eq_error_iff.mp refused with refused | ⟨_, _, refused⟩
    · exact .inr (resolver_error refused)
    · cases refused

end Handler

def Attribute.Grammatical (registry : Registry) (attr : Attribute) : Prop :=
  ∀ fault, ¬ attr.Ungrammatical registry fault

/-- The attribute in that place asks for the action. -/
def PlacedAction.Stands (registry : Registry) (attributes : List Attribute)
    (placed : PlacedAction) : Prop :=
  ∃ attr, attributes[placed.place]? = some attr ∧ attr.Collects registry placed.action

/-- Two actions of an element conflict, and the first of them emits first. -/
def ConflictingPair (registry : Registry) (attributes : List Attribute)
    (pair : PlacedAction × PlacedAction) : Prop :=
  pair.1.Stands registry attributes ∧ pair.2.Stands registry attributes ∧
    pair.1.Before pair.2 ∧ pair.1.action.conflicts pair.2.action = true

def PlacedAction.translate (actions : ActionMap) (placed : PlacedAction) :
    Except ActionError (List Attribute) :=
  placed.action.handler.translate placed.action.attr actions

/-- The handler of an action of an element refuses it. -/
def Refused (registry : Registry) (actions : ActionMap) (attributes : List Attribute)
    (placed : PlacedAction) : Prop :=
  placed.Stands registry attributes ∧ ∃ error, placed.translate actions = .error error

theorem grammatical_iff {registry : Registry} (actions : ActionMap) {attr : Attribute} :
    attr.Grammatical registry ↔
      ∃ contribution, Contribution.ofAttribute registry actions attr = .ok contribution := by
  have failure (fault : GrammarError) :
      Contribution.ofAttribute registry actions attr = .error fault ↔
        attr.Ungrammatical registry fault := Contribution.ofAttribute_eq_error_iff
  simp only [Attribute.Grammatical, ← failure]
  cases Contribution.ofAttribute registry actions attr <;> simp

theorem exists_contributions {registry : Registry} (actions : ActionMap)
    {attributes : List Attribute}
    (grammatical : ∀ attr ∈ attributes, attr.Grammatical registry) :
    ∃ contributions,
      attributes.mapM (Contribution.ofAttribute registry actions) = .ok contributions := by
  cases contributed : attributes.mapM (Contribution.ofAttribute registry actions) with
  | ok contributions => exact ⟨contributions, rfl⟩
  | error fault =>
      obtain ⟨early, attr, late, rfl, _, failed⟩ := mapM_eq_error_iff.mp contributed
      have ungrammatical := Contribution.ofAttribute_eq_error_iff.mp failed
      exact absurd ungrammatical (grammatical attr (by simp) fault)

section Contributed

variable {registry : Registry} {actions : ActionMap} {attributes : List Attribute}
  {contributions : List Contribution}
  (contributed : attributes.mapM (Contribution.ofAttribute registry actions) = .ok contributions)
include contributed

theorem mem_sortedActions_iff {placed : PlacedAction} :
    placed ∈ sortedActions contributions ↔ placed.Stands registry attributes := by
  rw [sortedActions, List.mem_mergeSort, mem_placedActions_iff]
  constructor
  · intro given
    obtain ⟨contribution, found, collected⟩ := given
    obtain ⟨attr, inPlace, offered⟩ := (getElem?_of_mapM contributed).mp found
    exact ⟨attr, inPlace, Contribution.collects_of_collected? offered collected⟩
  · intro given
    obtain ⟨attr, inPlace, collects⟩ := given
    have found := (getElem?_of_mapM contributed).mpr
      ⟨attr, inPlace, Contribution.ofAttribute_of_collects collects⟩
    exact ⟨_, found, rfl⟩

theorem conflictingPair_eq : ConflictingPair registry attributes =
    RelatedPair PlacedAction.Before (fun first second => first.action.conflicts second.action)
      (sortedActions contributions) := by
  funext pair
  simp only [ConflictingPair, RelatedPair, mem_sortedActions_iff contributed]

theorem refused_eq : Refused registry actions attributes =
    fun placed => placed ∈ sortedActions contributions ∧
      ∃ error, placed.translate actions = .error error := by
  funext placed
  simp only [Refused, mem_sortedActions_iff contributed]

/-- What an element compiles to, in terms of its actions in their order. -/
theorem compileElement_of_contributed :
    compileElement attributes registry actions =
      match firstPair? (fun first second => first.action.conflicts second.action)
        (sortedActions contributions) with
      | some pair => .error (pair.1.action.conflictError pair.2.action)
      | none => (fun translated => contributions.flatMap Contribution.passed? ++ translated.flatten)
          <$> (sortedActions contributions).mapM (PlacedAction.translate actions) := by
  have sorted := map_action_sortedActions contributions
  rw [compileElement, contributed, mapError_ok, ok_bind]
  simp only [← sorted, checkConflicts, firstPair?_map, List.mapM_map]
  cases firstPair? (fun first second => first.action.conflicts second.action)
      (sortedActions contributions) with
  | some pair => rfl
  | none => rfl

end Contributed

section Reports

variable {registry : Registry} {actions : ActionMap} {attributes : List Attribute}

theorem reports_ungrammatical
    (failing : ∃ attr ∈ attributes, ¬ attr.Grammatical registry) :
    ∃ early attr late fault, attributes = early ++ attr :: late ∧
      (∀ earlier ∈ early, earlier.Grammatical registry) ∧ attr.Ungrammatical registry fault ∧
      compileElement attributes registry actions = .error (.grammar fault) := by
  obtain ⟨failingAttr, member, ungrammatical⟩ := failing
  cases contributed : attributes.mapM (Contribution.ofAttribute registry actions) with
  | ok contributions =>
      have succeeds := forall_of_mapM contributed failingAttr member
      exact absurd ((grammatical_iff actions).mpr succeeds) ungrammatical
  | error fault =>
      have reported : compileElement attributes registry actions = .error (.grammar fault) := by
        rw [compileElement, contributed]
        rfl
      obtain ⟨early, attr, late, same, succeed, failed⟩ := mapM_eq_error_iff.mp contributed
      exact ⟨early, attr, late, fault, same,
        fun earlier inEarly => (grammatical_iff actions).mpr (succeed earlier inEarly),
        Contribution.ofAttribute_eq_error_iff.mp failed, reported⟩

theorem reports_conflict (grammatical : ∀ attr ∈ attributes, attr.Grammatical registry)
    (conflict : ∃ pair, ConflictingPair registry attributes pair) :
    ∃ pair, Least (Prod.Lex PlacedAction.Before PlacedAction.Before)
        (ConflictingPair registry attributes) pair ∧
      compileElement attributes registry actions =
        .error (pair.1.action.conflictError pair.2.action) := by
  obtain ⟨contributions, contributed⟩ := exists_contributions actions grammatical
  have ordered := pairwise_sortedActions contributions
  rw [conflictingPair_eq contributed] at conflict ⊢
  rw [compileElement_of_contributed contributed]
  cases found : firstPair? (fun first second : PlacedAction =>
      first.action.conflicts second.action) (sortedActions contributions) with
  | some pair =>
      exact ⟨pair, least_of_firstPair? PlacedAction.before_asymmetric ordered found, rfl⟩
  | none =>
      obtain ⟨pair, conflicting⟩ := conflict
      exact absurd conflicting
        (not_related_of_firstPair? PlacedAction.before_asymmetric ordered found pair)

/-- Without a conflict the actions are translated, one after the other. -/
theorem compileElement_of_no_conflict {contributions : List Contribution}
    (contributed : attributes.mapM (Contribution.ofAttribute registry actions) = .ok contributions)
    (peaceful : ∀ pair, ¬ ConflictingPair registry attributes pair) :
    compileElement attributes registry actions =
      (fun translated => contributions.flatMap Contribution.passed? ++ translated.flatten) <$>
        (sortedActions contributions).mapM (PlacedAction.translate actions) := by
  rw [conflictingPair_eq contributed] at peaceful
  rw [compileElement_of_contributed contributed]
  cases found : firstPair? (fun first second : PlacedAction =>
      first.action.conflicts second.action) (sortedActions contributions) with
  | some pair =>
      have least := least_of_firstPair? PlacedAction.before_asymmetric
        (pairwise_sortedActions contributions) found
      exact absurd least.holds (peaceful pair)
  | none => rfl

/-- The value of a collected action is read, so it is read again when the action
is translated. -/
theorem Attribute.Collects.parsed {attr : Attribute} {action : CollectedAction}
    (collects : attr.Collects registry action) :
    ∃ expressions, parse action.attr.value = .ok expressions := by
  obtain ⟨_, _, _, declared⟩ := collects
  obtain ⟨expressions, parsed, _⟩ := bind_eq_ok_iff.mp declared
  exact ⟨expressions, parsed⟩

theorem reports_refusal (grammatical : ∀ attr ∈ attributes, attr.Grammatical registry)
    (peaceful : ∀ pair, ¬ ConflictingPair registry attributes pair)
    (refused : ∃ placed, Refused registry actions attributes placed) :
    ∃ placed error, Least PlacedAction.Before (Refused registry actions attributes) placed ∧
      placed.translate actions = .error error ∧
      compileElement attributes registry actions = .error error ∧
      (error = .explicitAction placed.action.attr.key ∨
        (∃ fault, error = .params placed.action.handler fault) ∨
        ∃ name fault, error = .lookup name fault) := by
  obtain ⟨contributions, contributed⟩ := exists_contributions actions grammatical
  rw [compileElement_of_no_conflict contributed peaceful]
  cases translated : (sortedActions contributions).mapM (PlacedAction.translate actions) with
  | ok lines =>
      obtain ⟨placed, refusedPlaced⟩ := refused
      rw [refused_eq contributed] at refusedPlaced
      obtain ⟨member, error, failed⟩ := refusedPlaced
      obtain ⟨result, succeeds⟩ := forall_of_mapM translated placed member
      rw [failed] at succeeds
      cases succeeds
  | error error =>
      obtain ⟨placed, least, failed⟩ :=
        least_of_mapM (pairwise_sortedActions contributions) translated
      rw [← refused_eq contributed] at least
      obtain ⟨⟨attr, _, collects⟩, _⟩ := least.holds
      obtain ⟨expressions, parsed⟩ := collects.parsed
      exact ⟨placed, error, least, failed, rfl, Handler.translate_error parsed failed⟩

theorem compiles (grammatical : ∀ attr ∈ attributes, attr.Grammatical registry)
    (peaceful : ∀ pair, ¬ ConflictingPair registry attributes pair)
    (accepted : ∀ placed, ¬ Refused registry actions attributes placed) :
    ∃ out, compileElement attributes registry actions = .ok out := by
  obtain ⟨contributions, contributed⟩ := exists_contributions actions grammatical
  rw [compileElement_of_no_conflict contributed peaceful]
  cases translated : (sortedActions contributions).mapM (PlacedAction.translate actions) with
  | ok lines => exact ⟨_, rfl⟩
  | error error =>
      obtain ⟨placed, least, _⟩ :=
        least_of_mapM (pairwise_sortedActions contributions) translated
      rw [← refused_eq contributed] at least
      exact absurd least.holds (accepted placed)

end Reports

/-- Which error an element reports. First comes the first attribute that fails by
itself. If none does, the first pair of actions that conflict comes next, and
after that the first action that its handler refuses, which it never does for a
text that does not follow its grammar. So a conflict is reported exactly if
there is one and all attributes follow their grammars. -/
theorem compileElement_first_error (attributes : List Attribute) (registry : Registry)
    (actions : ActionMap) :
    ((∃ attr ∈ attributes, ¬ attr.Grammatical registry) →
      ∃ early attr late fault, attributes = early ++ attr :: late ∧
        (∀ earlier ∈ early, earlier.Grammatical registry) ∧ attr.Ungrammatical registry fault ∧
        compileElement attributes registry actions = .error (.grammar fault)) ∧
    ((∀ attr ∈ attributes, attr.Grammatical registry) →
      (∃ pair, ConflictingPair registry attributes pair) →
      ∃ pair, Least (Prod.Lex PlacedAction.Before PlacedAction.Before)
          (ConflictingPair registry attributes) pair ∧
        compileElement attributes registry actions =
          .error (pair.1.action.conflictError pair.2.action)) ∧
    ((∀ attr ∈ attributes, attr.Grammatical registry) →
      (∀ pair, ¬ ConflictingPair registry attributes pair) →
      (∃ placed, Refused registry actions attributes placed) →
      ∃ placed error, Least PlacedAction.Before (Refused registry actions attributes) placed ∧
        placed.translate actions = .error error ∧
        compileElement attributes registry actions = .error error ∧
        (error = .explicitAction placed.action.attr.key ∨
          (∃ fault, error = .params placed.action.handler fault) ∨
          ∃ name fault, error = .lookup name fault)) ∧
    ((∀ attr ∈ attributes, attr.Grammatical registry) →
      (∀ pair, ¬ ConflictingPair registry attributes pair) →
      (∀ placed, ¬ Refused registry actions attributes placed) →
      ∃ out, compileElement attributes registry actions = .ok out) ∧
    ((∃ first second events,
        compileElement attributes registry actions = .error (.conflict first second events)) ↔
      (∀ attr ∈ attributes, attr.Grammatical registry) ∧
        ∃ pair, ConflictingPair registry attributes pair) := by
  refine ⟨reports_ungrammatical, reports_conflict, reports_refusal, compiles, ?reported, ?conflicting⟩
  case reported =>
    intro given
    obtain ⟨first, second, events, reported⟩ := given
    by_cases failing : ∃ attr ∈ attributes, ¬ attr.Grammatical registry
    · obtain ⟨_, _, _, fault, _, _, _, result⟩ := reports_ungrammatical failing
      rw [reported] at result
      cases result
    have grammatical : ∀ attr ∈ attributes, attr.Grammatical registry := fun attr member =>
      Classical.byContradiction fun ungrammatical => failing ⟨attr, member, ungrammatical⟩
    by_cases conflict : ∃ pair, ConflictingPair registry attributes pair
    · exact ⟨grammatical, conflict⟩
    have peaceful := not_exists.mp conflict
    by_cases refused : ∃ placed, Refused registry actions attributes placed
    · obtain ⟨_, error, _, _, result, reason⟩ := reports_refusal grammatical peaceful refused
      rw [reported, Except.error.injEq] at result
      subst result
      rcases reason with contrary | ⟨_, contrary⟩ | ⟨_, _, contrary⟩ <;> cases contrary
    · obtain ⟨out, result⟩ := compiles grammatical peaceful (not_exists.mp refused)
      rw [reported] at result
      cases result
  case conflicting =>
    intro given
    obtain ⟨grammatical, conflict⟩ := given
    obtain ⟨pair, _, result⟩ := reports_conflict grammatical conflict
    exact ⟨_, _, _, result⟩

end EventBindings
