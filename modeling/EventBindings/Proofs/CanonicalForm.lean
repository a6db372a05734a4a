import EventBindings.Proofs.Element.Recompilation

namespace EventBindings

/-!
The canonical form of binding keys, said without reading or printing one:

    key       = events template? modifiers
    events    = event | "[" event ("," event)+ "]"
    event     = name ":" outcome
    template  = "::" name
    modifiers = ("." name)*

No blank stands anywhere, and the names of the modifiers ascend. A binding key is
in this form exactly if compiling leaves it as it is.
-/

inductive CanonicalEvent : String → Prop
  | intro {name : String} (isName : IsName name) (outcome : EventState) :
      CanonicalEvent (name ++ ":" ++ outcome.name)

inductive CanonicalEvents : String → Prop
  | single {event : String} (canonical : CanonicalEvent event) : CanonicalEvents event
  | several {events : List String} (severalEvents : 2 ≤ events.length)
      (canonical : ∀ event ∈ events, CanonicalEvent event) :
      CanonicalEvents ("[" ++ String.intercalate "," events ++ "]")

inductive CanonicalTemplate : String → Prop
  | absent : CanonicalTemplate ""
  | named {name : String} (isName : IsName name) : CanonicalTemplate ("::" ++ name)

/-- Names are ASCII, so the order of their characters is the order of their
bytes. -/
inductive CanonicalModifiers : String → Prop
  | intro {names : List String} (isName : ∀ name ∈ names, IsName name)
      (ascending : names.Pairwise (· < ·)) :
      CanonicalModifiers (String.join (names.map ("." ++ ·)))

inductive CanonicalKey : String → Prop
  | intro {events template modifiers : String} (inEvents : CanonicalEvents events)
      (inTemplate : CanonicalTemplate template) (inModifiers : CanonicalModifiers modifiers) :
      CanonicalKey (events ++ template ++ modifiers)

theorem Event.canonical_text {event : Event} (isName : IsName event.name) :
    CanonicalEvent event.text :=
  .intro isName event.state

/-- Events are found in the texts that are written like events. -/
theorem exists_events_of_canonical {texts : List String}
    (canonical : ∀ text ∈ texts, CanonicalEvent text) :
    ∃ events : List Event, events.map Event.text = texts ∧
      ∀ event ∈ events, IsName event.name := by
  induction texts with
  | nil => exact ⟨[], rfl, nofun⟩
  | cons text texts ih =>
      rw [List.forall_mem_cons] at canonical
      obtain ⟨⟨isName, outcome⟩, restCanonical⟩ := canonical
      obtain ⟨events, written, named⟩ := ih restCanonical
      exact ⟨⟨_, outcome⟩ :: events, by rw [List.map_cons, written]; rfl,
        List.forall_mem_cons.mpr ⟨isName, named⟩⟩

namespace ResolvedBinding

theorem eventsText_of_several {events : List Event} (several : 2 ≤ events.length) :
    eventsText events = "[" ++ String.intercalate "," (events.map Event.text) ++ "]" := by
  unfold eventsText
  split
  next => simp at several
  next => rfl

theorem canonicalEvents_eventsText {events : List Event} (nonempty : events ≠ [])
    (named : ∀ event ∈ events, IsName event.name) : CanonicalEvents (eventsText events) := by
  cases events with
  | nil => exact absurd rfl nonempty
  | cons first events =>
      cases events with
      | nil => exact .single (Event.canonical_text (named first List.mem_cons_self))
      | cons second events =>
          have several : 2 ≤ (first :: second :: events).length := by simp
          rw [eventsText_of_several several]
          refine .several (by simp) ?_
          rw [List.forall_mem_map]
          exact fun event member => Event.canonical_text (named event member)

theorem exists_of_canonicalEvents {text : String} (canonical : CanonicalEvents text) :
    ∃ events, events ≠ [] ∧ (∀ event ∈ events, IsName event.name) ∧ eventsText events = text := by
  cases canonical with
  | single canonical =>
      obtain ⟨isName, outcome⟩ := canonical
      exact ⟨[⟨_, outcome⟩], List.cons_ne_nil _ _, List.forall_mem_singleton.mpr isName, rfl⟩
  | several severalTexts canonical =>
      obtain ⟨events, rfl, named⟩ := exists_events_of_canonical canonical
      rw [List.length_map] at severalTexts
      refine ⟨events, ?_, named, eventsText_of_several severalTexts⟩
      rintro rfl
      simp at severalTexts

theorem canonicalTemplate_templateText {template : Option String}
    (named : ∀ name ∈ template, IsName name) : CanonicalTemplate (templateText template) := by
  cases template with
  | none => exact .absent
  | some name => exact .named (named name rfl)

theorem exists_of_canonicalTemplate {text : String} (canonical : CanonicalTemplate text) :
    ∃ template, (∀ name ∈ template, IsName name) ∧ templateText template = text := by
  cases canonical with
  | absent => exact ⟨none, nofun, rfl⟩
  | @named name isName =>
      refine ⟨some name, ?_, rfl⟩
      rintro _ ⟨⟩
      exact isName

theorem canonicalModifiers_modifiersText {modifiers : OrderedSet String}
    (named : ∀ name ∈ modifiers, IsName name) : CanonicalModifiers (modifiersText modifiers) :=
  .intro named modifiers.ascending

theorem exists_of_canonicalModifiers {text : String} (canonical : CanonicalModifiers text) :
    ∃ modifiers : OrderedSet String, (∀ name ∈ modifiers, IsName name) ∧
      modifiersText modifiers = text := by
  obtain ⟨named, ascending⟩ := canonical
  exact ⟨⟨_, ascending⟩, named, rfl⟩

/-- The keys of bindings whose names are identifiers are the keys in canonical
form. -/
theorem canonicalKey_iff {key : String} :
    CanonicalKey key ↔ ∃ binding : ResolvedBinding, binding.Writable ∧ binding.keyText = key := by
  constructor
  · intro canonical
    obtain ⟨inEvents, inTemplate, inModifiers⟩ := canonical
    obtain ⟨events, nonempty, eventNames, rfl⟩ := exists_of_canonicalEvents inEvents
    obtain ⟨template, templateNames, rfl⟩ := exists_of_canonicalTemplate inTemplate
    obtain ⟨modifiers, modifierNames, rfl⟩ := exists_of_canonicalModifiers inModifiers
    exact ⟨⟨events, template, defaultAction, modifiers⟩,
      ⟨nonempty, eventNames, templateNames, modifierNames⟩, rfl⟩
  · intro given
    obtain ⟨binding, writable, rfl⟩ := given
    exact .intro (canonicalEvents_eventsText writable.nonempty writable.events)
      (canonicalTemplate_templateText writable.template)
      (canonicalModifiers_modifiersText writable.modifiers)

end ResolvedBinding

/-- Compiling a binding key twice is compiling it once. A key compiles to itself,
with `@fir:` before it, exactly if it is in canonical form, whatever the value. -/
theorem compileBindingKey_canonical (key value : String) :
    (∀ attr, compileBindingKey key value = .ok attr →
      ∃ rest, attr.key = "@fir:" ++ rest ∧ compileBindingKey rest attr.value = .ok attr) ∧
    ((∃ attr, compileBindingKey key value = .ok attr ∧ attr.key = "@fir:" ++ key) ↔
      CanonicalKey key) := by
  refine ⟨?idempotent, ?compiles, ?canonical⟩
  case idempotent =>
    intro attr compiled
    obtain ⟨binding, writable, action, rfl⟩ := exists_binding_of_compileBindingKey compiled
    refine ⟨binding.keyText, rfl, ?_⟩
    rw [ResolvedBinding.compileBindingKey_keyText writable, ResolvedBinding.toAttribute, action,
      bindingAction_bindingAction]
  case compiles =>
    intro given
    obtain ⟨attr, compiled, kept⟩ := given
    obtain ⟨binding, writable, _, rfl⟩ := exists_binding_of_compileBindingKey compiled
    have same : binding.keyText = key := by
      simpa [ResolvedBinding.toAttribute, ResolvedBinding.canonicalKey, bindingKeyStart] using kept
    exact ResolvedBinding.canonicalKey_iff.mpr ⟨binding, writable, same⟩
  case canonical =>
    intro canonical
    obtain ⟨binding, writable, rfl⟩ := ResolvedBinding.canonicalKey_iff.mp canonical
    exact ⟨_, ResolvedBinding.compileBindingKey_keyText writable value, rfl⟩

/-- Blanks and groups of one event go, outcomes are filled in, and modifiers are
sorted. -/
example : compileBindingKey "b.y , [a:done].x ::t.x" "" =
    .ok ⟨"@fir:[b:ok,a:done]::t.x.y", "$fir.replace()"⟩ := by
  decide +kernel

end EventBindings
