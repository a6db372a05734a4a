import EventBindings.CommandLine.Run
import EventBindings.Proofs.Element.Emission

namespace EventBindings

/-!
Compiling what an element compiled to. The keys stay, and the values lose the
blanks at their ends.
-/

theorem forall_mem_intercalate {property : Char → Prop} {separator : String}
    {texts : List String} (between : ∀ c ∈ separator.toList, property c)
    (all : ∀ text ∈ texts, ∀ c ∈ text.toList, property c) :
    ∀ c ∈ (String.intercalate separator texts).toList, property c := by
  induction texts with
  | nil => simp
  | cons first texts ih =>
      cases texts with
      | nil => simpa using all
      | cons second texts =>
          rw [String.intercalate_cons_cons, String.toList_append, String.toList_append,
            List.forall_mem_append, List.forall_mem_append]
          rw [List.forall_mem_cons] at all
          exact ⟨⟨all.1, between⟩, ih all.2⟩

theorem forall_mem_join {property : Char → Prop} {texts : List String}
    (all : ∀ text ∈ texts, ∀ c ∈ text.toList, property c) :
    ∀ c ∈ (String.join texts).toList, property c := by
  intro c member
  rw [String.toList_join] at member
  obtain ⟨text, inTexts, inText⟩ := List.mem_flatMap.mp member
  exact all text inTexts c inText

/-- The character stands in keys: it is no equals sign and not blank. -/
def InKey (c : Char) : Prop :=
  c ≠ '=' ∧ Text.isBlank c = false

instance (c : Char) : Decidable (InKey c) :=
  inferInstanceAs (Decidable (c ≠ '=' ∧ Text.isBlank c = false))

theorem inKey_of_all {text : String}
    (checked : (text.toList.all fun c => decide (InKey c)) = true) :
    ∀ c ∈ text.toList, InKey c := by
  simpa using checked

theorem inKey_of_isIdentifierPart {c : Char} (part : Text.isIdentifierPart c = true) : InKey c := by
  refine ⟨?_, Text.isBlank_of_isIdentifierPart part⟩
  intro same
  subst same
  exact absurd part (by decide)

theorem IsName.inKey {name : String} (isName : IsName name) : ∀ c ∈ name.toList, InKey c :=
  fun c member => inKey_of_isIdentifierPart (isName.isIdentifierPart c member)

namespace ResolvedBinding

/-- Apart from names there are only brackets, commas and colons in events. -/
theorem forall_mem_eventsText {property : Char → Prop} {events : List Event}
    (marks : ∀ c ∈ "[,:]".toList, property c)
    (parts : ∀ c, Text.isIdentifierPart c = true → property c)
    (named : ∀ event ∈ events, IsName event.name) :
    ∀ c ∈ (eventsText events).toList, property c := by
  have texts : ∀ text ∈ events.map Event.text, ∀ c ∈ text.toList, property c := by
    rw [List.forall_mem_map]
    intro event member
    rw [Event.text, String.toList_append, String.toList_append, List.forall_mem_append,
      List.forall_mem_append]
    refine ⟨⟨fun c inName => parts c ((named event member).isIdentifierPart c inName), ?colon⟩,
      fun c inState => parts c ((EventState.isName_name event.state).isIdentifierPart c inState)⟩
    exact List.forall_mem_singleton.mpr (marks ':' (by decide))
  unfold eventsText
  split
  next => exact List.forall_mem_singleton.mp texts
  next =>
    rw [String.toList_append, String.toList_append, List.forall_mem_append,
      List.forall_mem_append]
    have comma : ∀ c ∈ ",".toList, property c :=
      List.forall_mem_singleton.mpr (marks ',' (by decide))
    exact ⟨⟨List.forall_mem_singleton.mpr (marks '[' (by decide)),
      forall_mem_intercalate comma texts⟩, List.forall_mem_singleton.mpr (marks ']' (by decide))⟩

variable {binding : ResolvedBinding}

theorem inKey_canonicalKey (writable : binding.Writable) :
    ∀ c ∈ binding.canonicalKey.toList, InKey c := by
  have events : ∀ c ∈ (eventsText binding.events).toList, InKey c :=
    forall_mem_eventsText (inKey_of_all rfl) (fun c => inKey_of_isIdentifierPart) writable.events
  have template : ∀ c ∈ (templateText binding.template).toList, InKey c := by
    cases same : binding.template with
    | none => exact nofun
    | some name =>
        rw [templateText, String.toList_append, List.forall_mem_append]
        exact ⟨inKey_of_all rfl, (writable.template name same).inKey⟩
  have modifiers : ∀ c ∈ (modifiersText binding.modifiers).toList, InKey c := by
    apply forall_mem_join
    rw [List.forall_mem_map]
    intro name member
    rw [String.toList_append, List.forall_mem_append]
    exact ⟨inKey_of_all rfl, (writable.modifiers name member).inKey⟩
  simp only [canonicalKey, keyText, String.toList_append, List.forall_mem_append]
  exact ⟨inKey_of_all rfl, ⟨events, template⟩, modifiers⟩

/-- The key of a binding is compiled to itself. -/
theorem compileBindingKey_keyText (writable : binding.Writable) (value : String) :
    compileBindingKey binding.keyText value =
      .ok ⟨binding.canonicalKey, bindingAction value⟩ := by
  obtain ⟨clauses, read, completed⟩ := parseBindingKey_keyText writable
  have key := congrArg canonicalKey completed
  rw [compileBindingKey, read, ok_bind, ← key]
  rfl

end ResolvedBinding

theorem bindingAction_of_blank {value : String} (blank : Text.isAllBlank value = true) :
    bindingAction value = defaultAction := if_pos blank

theorem bindingAction_of_not_blank {value : String} (written : Text.isAllBlank value = false) :
    bindingAction value = Text.trim value := if_neg (by simp [written])

theorem bindingAction_bindingAction (value : String) :
    bindingAction (bindingAction value) = bindingAction value := by
  cases blank : Text.isAllBlank value with
  | true =>
      rw [bindingAction_of_blank blank]
      decide
  | false =>
      have trimmedWritten : Text.isAllBlank (Text.trim value) = false := by
        rw [Text.isAllBlank_trim, blank]
      rw [bindingAction_of_not_blank blank, bindingAction_of_not_blank trimmedWritten,
        Text.trim_trim]

namespace Attribute

variable {attr : Attribute}

def recompiled (attr : Attribute) : Attribute :=
  ⟨attr.key, bindingAction attr.value⟩

theorem recompiled_recompiled (attr : Attribute) : attr.recompiled.recompiled = attr.recompiled := by
  simp [recompiled, bindingAction_bindingAction]

def argument (attr : Attribute) : String :=
  attr.key ++ "=" ++ attr.value

theorem Emitted.recompiled (emitted : attr.Emitted) : attr.recompiled.Emitted := by
  obtain ⟨binding, writable, rfl⟩ := emitted
  exact ⟨{ binding with action := bindingAction binding.action },
    ⟨writable.nonempty, writable.events, writable.template, writable.modifiers⟩, rfl⟩

theorem Emitted.ofAttribute (emitted : attr.Emitted) (registry : Registry)
    (actions : ActionMap) :
    Contribution.ofAttribute registry actions attr = .ok (.passed [attr.recompiled]) := by
  obtain ⟨binding, writable, rfl⟩ := emitted
  have role : AttributeRole.ofKey binding.toAttribute.key = .binding binding.keyText :=
    AttributeRole.ofKey_bindingKey binding.keyText
  have compiled := ResolvedBinding.compileBindingKey_keyText writable binding.toAttribute.value
  rw [Contribution.ofAttribute, role]
  dsimp only
  rw [compiled]
  rfl

/-- As an argument the attribute is split into its key and its value again. -/
theorem Emitted.splitAttribute (emitted : attr.Emitted) :
    CommandLine.splitAttribute attr.argument = .ok attr := by
  obtain ⟨binding, writable, rfl⟩ := emitted
  have inKey := ResolvedBinding.inKey_canonicalKey writable
  have untilSign : ∀ c ∈ binding.canonicalKey.toList, (c != '=') = true :=
    fun c member => by simpa using (inKey c member).1
  have trimmed : Text.trimBlanks binding.canonicalKey.toList = binding.canonicalKey.toList :=
    Text.trimBlanks_of_forall fun c member => (inKey c member).2
  have letters : binding.toAttribute.argument.toList =
      binding.canonicalKey.toList ++ '=' :: binding.action.toList := by
    simp [argument, ResolvedBinding.toAttribute]
  have key : binding.toAttribute.argument.toList.takeWhile (· != '=') =
      binding.canonicalKey.toList := by
    rw [letters, List.takeWhile_append_of_pos untilSign]
    simp
  have value : binding.toAttribute.argument.toList.dropWhile (· != '=') =
      '=' :: binding.action.toList := by
    rw [letters, List.dropWhile_append_of_pos untilSign]
    simp
  have written : binding.canonicalKey.toList.all Text.isBlank = false := by
    rw [ResolvedBinding.canonicalKey, String.toList_append, List.all_append]
    rfl
  simp only [CommandLine.splitAttribute, key, value, written, trimmed, List.drop_one,
    List.tail_cons, String.ofList_toList]
  rfl

end Attribute

/-- Bindings with readable keys compile to themselves but for their values. -/
theorem compileElement_of_emitted {attributes : List Attribute}
    (emitted : ∀ attr ∈ attributes, attr.Emitted) (registry : Registry) (actions : ActionMap) :
    compileElement attributes registry actions = .ok (attributes.map Attribute.recompiled) := by
  have contributed := mapM_of_forall fun attr member =>
    (emitted attr member).ofAttribute registry actions
  have passed : (attributes.map fun attr => Contribution.passed [attr.recompiled]).flatMap
      Contribution.passed? = attributes.map Attribute.recompiled := by
    rw [List.flatMap_map, List.map_eq_flatMap]
    rfl
  have collected : (attributes.map fun attr => Contribution.passed [attr.recompiled]).filterMap
      Contribution.collected? = [] := by
    rw [List.filterMap_map]
    simp [Contribution.collected?]
  have sorted : byPrecedence [] = [] := List.mergeSort_nil
  have accepted : checkConflicts [] = .ok () := rfl
  simp only [compileElement, contributed, mapError_ok, ok_bind, passed, collected, sorted, accepted]
  simp

theorem runElement_of_emitted {attributes : List Attribute}
    (emitted : ∀ attr ∈ attributes, attr.Emitted) (actions : ActionMap)
    (format : CommandLine.OutputFormat) :
    CommandLine.runElement (attributes.map Attribute.argument) actions format =
      .ok (format.render (attributes.map Attribute.recompiled)) := by
  have split : (attributes.map Attribute.argument).mapM CommandLine.splitAttribute =
      .ok attributes := by
    rw [List.mapM_map]
    have each := mapM_of_forall fun attr member => (emitted attr member).splitAttribute
    rwa [List.map_id'] at each
  rw [CommandLine.runElement, split, ok_bind, compileElement_of_emitted emitted]
  rfl

/-- What an element compiled to is compiled again, whatever the registry and the
map. Keys and order stay, a value loses the blanks at its ends, and a blank one
becomes the default action. From then on nothing changes any more. The same
holds on the command line, where each attribute is an argument of its own. -/
theorem compileElement_recompiles {attributes : List Attribute} {registry : Registry}
    {actions : ActionMap} {out : List Attribute}
    (compiled : compileElement attributes registry actions = .ok out) :
    ∃ again : List Attribute,
      (∀ registry actions, compileElement out registry actions = .ok again) ∧
      again = out.map (fun attr => ⟨attr.key,
        if Text.isAllBlank attr.value then "$fir.replace()" else Text.trim attr.value⟩) ∧
      ((∀ attr ∈ out, Text.isAllBlank attr.value = false ∧ Text.trim attr.value = attr.value) →
        again = out) ∧
      (∀ registry actions, compileElement again registry actions = .ok again) ∧
      (∀ attr ∈ out, CommandLine.splitAttribute (attr.key ++ "=" ++ attr.value) = .ok attr) ∧
      (∀ actions format, CommandLine.runElement
        (out.map fun attr => attr.key ++ "=" ++ attr.value) actions format =
          .ok (format.render again)) ∧
      (∀ actions format, CommandLine.runElement
        (again.map fun attr => attr.key ++ "=" ++ attr.value) actions format =
          .ok (format.render again)) := by
  have emitted := emitted_of_compileElement compiled
  have emittedAgain : ∀ attr ∈ out.map Attribute.recompiled, attr.Emitted := by
    rw [List.forall_mem_map]
    exact fun attr member => (emitted attr member).recompiled
  have settled : (out.map Attribute.recompiled).map Attribute.recompiled =
      out.map Attribute.recompiled := by
    rw [List.map_map]
    exact List.map_congr_left fun attr _ => attr.recompiled_recompiled
  refine ⟨out.map Attribute.recompiled, compileElement_of_emitted emitted, ?values, ?kept,
    ?third, fun attr member => (emitted attr member).splitAttribute,
    runElement_of_emitted emitted, ?commandLine⟩
  case values =>
    have default : defaultAction = "$fir.replace()" := by decide
    apply List.map_congr_left
    intro attr _
    rw [Attribute.recompiled, bindingAction, default]
  case kept =>
    intro trimmed
    have same : ∀ attr ∈ out, attr.recompiled = attr := by
      intro attr member
      obtain ⟨written, kept⟩ := trimmed attr member
      rw [Attribute.recompiled, bindingAction_of_not_blank written, kept]
    rw [List.map_congr_left same, List.map_id']
  case third =>
    intro registry actions
    rw [compileElement_of_emitted emittedAgain, settled]
  case commandLine =>
    intro actions format
    have run := runElement_of_emitted emittedAgain actions format
    rwa [settled] at run

theorem compileElement_recompiles_mapped_action :
    compileElement [⟨"x-fir-runjs:save", "create"⟩, ⟨"x-fir-render", "a,b:done.x->t"⟩] .builtin
        (.ofList [("save", " save() ")]) =
      .ok [⟨"@fir:[a:ok,b:done]::t.x", "$fir.replace()"⟩, ⟨"@fir:create:ok.nohtml", " save() "⟩] ∧
    compileElement
        [⟨"@fir:[a:ok,b:done]::t.x", "$fir.replace()"⟩, ⟨"@fir:create:ok.nohtml", " save() "⟩]
        (.ofHandlers []) ∅ =
      .ok [⟨"@fir:[a:ok,b:done]::t.x", "$fir.replace()"⟩, ⟨"@fir:create:ok.nohtml", "save()"⟩] := by
  have compiled : compileElement
      [⟨"x-fir-runjs:save", "create"⟩, ⟨"x-fir-render", "a,b:done.x->t"⟩] .builtin
      (.ofList [("save", " save() ")]) =
        .ok [⟨"@fir:[a:ok,b:done]::t.x", "$fir.replace()"⟩,
          ⟨"@fir:create:ok.nohtml", " save() "⟩] := by
    decide +kernel
  obtain ⟨again, compiledAgain, values, _⟩ := compileElement_recompiles compiled
  refine ⟨compiled, ?_⟩
  rw [compiledAgain, values]
  decide

end EventBindings
