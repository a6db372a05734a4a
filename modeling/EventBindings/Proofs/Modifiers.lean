import Mathlib.Data.List.Forall2
import EventBindings.Proofs.KeyEvents
import EventBindings.Proofs.Lines
import EventBindings.Proofs.Text.ByteOrder

namespace EventBindings

/-!
Modifiers are a set. They may stand behind any event of their binding, in any order and
more than once, and a handler may add its own. In the key each of them is written once,
behind everything else.
-/

section Rewriting

/-- Clauses in which the same modifiers are written otherwise. -/
inductive Shuffled : List EventClause → List EventClause → Prop
  | permuted {clause : EventClause} {modifiers : List String}
      (reordered : clause.modifiers.Perm modifiers) (before behind : List EventClause) :
      Shuffled (before ++ clause :: behind) (before ++ { clause with modifiers } :: behind)
  | repeated {clause : EventClause} {modifier : String} (written : modifier ∈ clause.modifiers)
      (before behind : List EventClause) :
      Shuffled (before ++ clause :: behind) (before ++ clause.addModifier modifier :: behind)
  | moved (modifier : String) (giver taker : EventClause)
      (before between behind : List EventClause) :
      Shuffled (before ++ giver.addModifier modifier :: between ++ taker :: behind)
        (before ++ giver :: between ++ taker.addModifier modifier :: behind)
  | refl (clauses : List EventClause) : Shuffled clauses clauses
  | symm {clauses others : List EventClause} (shuffled : Shuffled clauses others) :
      Shuffled others clauses
  | trans {clauses others more : List EventClause} (first : Shuffled clauses others)
      (second : Shuffled others more) : Shuffled clauses more

/-- The clauses list the same names and outcomes, and together they have the same set of
modifiers. -/
structure SameModifiers (clauses others : List EventClause) : Prop where
  events : clauses.map (fun clause => (clause.name, clause.state)) =
    others.map fun clause => (clause.name, clause.state)
  modifiers : ∀ modifier, modifier ∈ clauses.flatMap EventClause.modifiers ↔
    modifier ∈ others.flatMap EventClause.modifiers

theorem Shuffled.sameModifiers {clauses others : List EventClause}
    (shuffled : Shuffled clauses others) : SameModifiers clauses others := by
  induction shuffled with
  | permuted reordered before behind =>
      exact ⟨by simp, by simp [reordered.mem_iff]⟩
  | @repeated clause repeated written before behind =>
      refine ⟨by simp [EventClause.addModifier], fun modifier => ?_⟩
      have known : modifier = repeated → modifier ∈ clause.modifiers := fun same => same ▸ written
      simp only [EventClause.addModifier, List.flatMap_append, List.flatMap_cons, List.mem_append,
        List.mem_singleton, or_iff_left_of_imp known]
  | moved moved giver taker before between behind =>
      refine ⟨by simp [EventClause.addModifier], fun modifier => ?_⟩
      simp only [EventClause.addModifier, List.flatMap_append, List.flatMap_cons, List.mem_append,
        List.mem_singleton]
      grind
  | refl clauses => exact ⟨rfl, fun _ => Iff.rfl⟩
  | symm shuffled ih => exact ⟨ih.events.symm, fun modifier => (ih.modifiers modifier).symm⟩
  | trans first second firstIH secondIH =>
      exact ⟨firstIH.events.trans secondIH.events,
        fun modifier => (firstIH.modifiers modifier).trans (secondIH.modifiers modifier)⟩

/-- Bindings that differ only in how the same modifiers are written. -/
structure Binding.Matches (binding other : Binding) : Prop where
  template : binding.template = other.template
  action : binding.action = other.action
  clauses : SameModifiers binding.events other.events

namespace Resolver

variable {resolver : Resolver}

theorem flatMap_clauseEvents_congr {clauses others : List EventClause}
    (same : clauses.map (fun clause => (clause.name, clause.state)) =
      others.map fun clause => (clause.name, clause.state)) :
    clauses.flatMap resolver.clauseEvents = others.flatMap resolver.clauseEvents := by
  have named (clauses : List EventClause) : clauses.flatMap resolver.clauseEvents =
      (clauses.map fun clause => (clause.name, clause.state)).flatMap
        fun stated => resolver.clauseEvents ⟨stated.1, stated.2, []⟩ := by
    rw [List.flatMap_map]
    rfl
  rw [named, named others, same]

theorem resolve_congr {binding other : Binding} (alike : binding.Matches other) :
    resolver.resolve binding = resolver.resolve other := by
  have modifiers : resolver.modifiers.insertAll (binding.events.flatMap EventClause.modifiers) =
      resolver.modifiers.insertAll (other.events.flatMap EventClause.modifiers) := by
    apply OrderedSet.eq_of_mem_iff
    intro modifier
    rw [OrderedSet.mem_insertAll, OrderedSet.mem_insertAll, alike.clauses.modifiers]
  rw [resolve, resolve, alike.template, alike.action, modifiers,
    flatMap_clauseEvents_congr alike.clauses.events]

theorem compile_congr {expressions others : List Expression}
    (alike : List.Forall₂ (List.Forall₂ Binding.Matches) expressions others) :
    resolver.compile expressions = resolver.compile others := by
  have bindings : List.Forall₂ Binding.Matches expressions.flatten others.flatten :=
    List.rel_flatten alike
  have lines : List.Forall₂ (· = ·) (resolver.compile expressions) (resolver.compile others) := by
    rw [compile, compile, List.forall₂_map_left_iff, List.forall₂_map_right_iff]
    exact bindings.imp fun _ _ alike => congrArg ResolvedBinding.toAttribute (resolve_congr alike)
  rwa [List.forall₂_eq_eq_eq] at lines

end Resolver

theorem compileExpression_congr_of_matches {text other : String}
    {expressions others : List Expression} (parsed : parse text = .ok expressions)
    (otherParsed : parse other = .ok others)
    (alike : List.Forall₂ (List.Forall₂ Binding.Matches) expressions others) (actions : ActionMap) :
    compileExpression text actions = compileExpression other actions := by
  simp only [compileExpression, parsed, otherParsed, ok_bind, Resolver.compile_congr alike]

end Rewriting

section Keys

/-- The key ends in the modifiers, in strictly ascending order of their bytes. Each of them
has a dot before it, and there is no other dot in the key. -/
structure EndsInModifiers (key start : String) (modifiers : List String) : Prop where
  key_eq : key = start ++ String.join (modifiers.map ("." ++ ·))
  pieces : Text.pieces '.' key = start :: modifiers
  ascending : modifiers.Pairwise fun first second =>
    first.toByteArray.data.toList < second.toByteArray.data.toList

theorem append_join_dots (start : String) (names : List String) :
    start ++ String.join (names.map ("." ++ ·)) = String.intercalate "." (start :: names) := by
  induction names generalizing start with
  | nil => simp
  | cons name names ih =>
      rw [String.intercalate_cons_cons, ← ih name, List.map_cons, String.join_cons]
      simp only [String.append_assoc]

namespace ResolvedBinding

variable {binding : ResolvedBinding}

theorem dot_not_mem_start (writable : binding.Writable) :
    '.' ∉ (bindingKeyStart ++ eventsText binding.events ++
      templateText binding.template).toList := by
  have parts (c : Char) (part : Text.isIdentifierPart c = true) : c ≠ '.' := by
    intro same
    rw [same] at part
    cases part
  have marks (c : Char) (mark : c ∈ "[,:]".toList) : c ≠ '.' := by
    intro same
    rw [same] at mark
    exact absurd mark (by decide)
  have events := forall_mem_eventsText marks parts writable.events
  have template : '.' ∉ (templateText binding.template).toList := by
    cases same : binding.template with
    | none => decide
    | some name =>
        rw [templateText, String.toList_append, List.mem_append, not_or]
        exact ⟨by decide, (writable.template name same).bare rfl⟩
  rw [String.toList_append, String.toList_append, List.mem_append, List.mem_append, not_or, not_or]
  exact ⟨⟨by decide, fun dot => events '.' dot rfl⟩, template⟩

theorem endsInModifiers (writable : binding.Writable) :
    EndsInModifiers binding.canonicalKey
      (bindingKeyStart ++ eventsText binding.events ++ templateText binding.template)
      binding.modifiers.toList := by
  have key : binding.canonicalKey =
      bindingKeyStart ++ eventsText binding.events ++ templateText binding.template ++
        String.join (binding.modifiers.toList.map ("." ++ ·)) := by
    simp only [canonicalKey, keyText, modifiersText, String.append_assoc]
  refine ⟨key, ?pieces, ?ascending⟩
  case pieces =>
    rw [key, append_join_dots]
    apply Text.pieces_intercalate (List.cons_ne_nil _ _)
    rw [List.forall_mem_cons]
    exact ⟨dot_not_mem_start writable, fun name member => (writable.modifiers name member).bare rfl⟩
  case ascending =>
    exact binding.modifiers.ascending.imp Text.toByteArray_lt_iff.mpr

end ResolvedBinding

theorem endsInModifiers_compile {resolver : Resolver} (writable : resolver.Writable)
    {text : String} {expressions : List Expression} (parsed : parse text = .ok expressions) :
    List.Forall₂ (fun binding line => EndsInModifiers line.key
        (bindingKeyStart ++ ResolvedBinding.eventsText (resolver.resolve binding).events ++
          ResolvedBinding.templateText (resolver.resolve binding).template)
        (resolver.resolve binding).modifiers.toList)
      expressions.flatten (resolver.compile expressions) := by
  rw [Resolver.compile, List.forall₂_map_right_iff, List.forall₂_same]
  exact fun binding member =>
    ResolvedBinding.endsInModifiers (Resolver.writable_of_parse writable parsed member)

end Keys

open ResolvedBinding in
/-- Modifiers are a set. Whatever the settings, it does not matter behind which events of
a binding they stand, in which order, and how often. So expressions that differ in nothing
else compile to the same attributes. Each key that an expression compiles to ends in the
modifiers of its binding, each of them once, by their bytes, behind the template if there
is one. And every key of an element ends in modifiers. -/
theorem modifiers_form_set :
    (∀ (resolver : Resolver) (binding other : Binding),
      binding.template = other.template → binding.action = other.action →
      binding.events.map (fun clause => (clause.name, clause.state)) =
        other.events.map (fun clause => (clause.name, clause.state)) →
      (∀ modifier, modifier ∈ binding.events.flatMap EventClause.modifiers ↔
        modifier ∈ other.events.flatMap EventClause.modifiers) →
      resolver.resolve binding = resolver.resolve other) ∧
    (∀ text other expressions others actions,
      parse text = .ok expressions → parse other = .ok others →
      List.Forall₂ (List.Forall₂ fun binding other => binding.template = other.template ∧
        binding.action = other.action ∧ Shuffled binding.events other.events) expressions others →
      compileExpression text actions = compileExpression other actions) ∧
    (∀ text actions lines, compileExpression text actions = .ok lines →
      ∃ expressions, parse text = .ok expressions ∧
        List.Forall₂ (fun binding line => ∃ modifiers,
            EndsInModifiers line.key
              ("@fir:" ++ eventsText (binding.events.map EventClause.event) ++
                templateText binding.template) modifiers ∧
            ∀ modifier, modifier ∈ modifiers ↔
              modifier ∈ binding.events.flatMap EventClause.modifiers)
          expressions.flatten lines) ∧
    ∀ attributes registry actions out, compileElement attributes registry actions = .ok out →
      ∀ attr ∈ out, ∃ events template modifiers,
        EndsInModifiers attr.key ("@fir:" ++ eventsText events ++ templateText template)
          modifiers := by
  refine ⟨?resolved, ?compiled, ?expressions, ?elements⟩
  case resolved =>
    intro resolver binding other template action events modifiers
    exact Resolver.resolve_congr ⟨template, action, events, modifiers⟩
  case compiled =>
    intro text other expressions others actions parsed otherParsed shuffled
    have alike : List.Forall₂ (List.Forall₂ Binding.Matches) expressions others := by
      apply shuffled.imp
      intro expression otherExpression shuffled
      apply shuffled.imp
      intro binding otherBinding given
      obtain ⟨template, action, clauses⟩ := given
      exact ⟨template, action, clauses.sameModifiers⟩
    exact compileExpression_congr_of_matches parsed otherParsed alike actions
  case expressions =>
    intro text actions lines compiled
    obtain ⟨expressions, parsed, compiled⟩ := bind_eq_ok_iff.mp compiled
    cases compiled
    refine ⟨expressions, parsed, List.Forall₂.imp ?_
      (endsInModifiers_compile Resolver.writable_of_defaults parsed)⟩
    intro binding line ends
    rw [Resolver.events_resolve rfl] at ends
    refine ⟨_, ends, fun modifier => ?_⟩
    exact OrderedSet.mem_insertAll.trans (or_iff_left List.not_mem_nil)
  case elements =>
    intro attributes registry actions out compiled attr member
    obtain ⟨binding, writable, rfl⟩ := emitted_of_compileElement compiled attr member
    exact ⟨_, _, _, binding.endsInModifiers writable⟩

/-- Behind brackets a modifier belongs to the last event. -/
example : compileExpression "[a.y,b].x.b->t" ∅ = compileExpression "[a,b.x.y.x.b]->t" ∅ := by
  decide +kernel

end EventBindings
