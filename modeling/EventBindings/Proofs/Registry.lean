import EventBindings.Proofs.Element.Arrangement
import Mathlib.Data.List.Dedup

namespace EventBindings

/-!
Registries of some handlers. Such a registry resolves a name as the registry of
all handlers does, as long as what it finds is registered. So an element compiles
under it as it does under all handlers once the attributes are left out that ask
for one of the others. The order in which handlers are registered shows nowhere.
-/

namespace Handler

theorem ranksBefore_asymmetric {first second : Handler} (before : first.RanksBefore second) :
    ¬ second.RanksBefore first := by
  intro after
  rcases before with lower | ⟨same, below⟩ <;> rcases after with higher | ⟨sameToo, above⟩
  · omega
  · omega
  · omega
  · exact String.lt_asymm below above

theorem not_ranksBefore_iff {first second : Handler} : ¬ second.RanksBefore first ↔
    first.precedence ≤ second.precedence ∧
      (first.precedence = second.precedence → first.name ≤ second.name) := by
  rw [RanksBefore, not_or, not_and, Nat.not_lt, String.not_lt, eq_comm]

theorem not_ranksBefore_trans {first second third : Handler} (left : ¬ second.RanksBefore first)
    (right : ¬ third.RanksBefore second) : ¬ third.RanksBefore first := by
  rw [not_ranksBefore_iff] at *
  refine ⟨Nat.le_trans left.1 right.1, fun same => ?_⟩
  have level : first.precedence = second.precedence := by omega
  exact String.le_trans (left.2 level) (right.2 (level.symm.trans same))

theorem eq_of_not_ranksBefore {first second : Handler} (left : ¬ second.RanksBefore first)
    (right : ¬ first.RanksBefore second) : first = second := by
  rw [not_ranksBefore_iff] at left right
  have level : first.precedence = second.precedence := Nat.le_antisymm left.1 right.1
  have names : first.name = second.name := String.le_antisymm (left.2 level) (right.2 level.symm)
  have found := ofName?_name first
  rw [names, ofName?_name, Option.some.injEq] at found
  exact found.symm

theorem nodup_all : all.Nodup := by
  decide

/-- No handler has a name that begins like that of a script. -/
theorem scriptName?_name (handler : Handler) : scriptName? handler.name = none := by
  cases handler <;> decide

end Handler

namespace Registry

variable (handlers : List Handler)

theorem get?_builtin (name : String) : builtin.get? name = Handler.ofName? name := by
  cases found : Handler.ofName? name with
  | none => rw [get?, found, Option.filter_none]
  | some handler =>
      have registered : builtin.registered handler = true :=
        decide_eq_true (Handler.mem_all handler)
      rw [get?, found, Option.filter_some_pos registered]

theorem get?_ofHandlers (name : String) :
    (ofHandlers handlers).get? name = (builtin.get? name).filter (· ∈ handlers) := by
  rw [get?_builtin]
  rfl

theorem resolve?_of_get? {registry : Registry} {name : String} {handler : Handler}
    (found : registry.get? name = some handler) : registry.resolve? name = some handler := by
  rw [resolve?, found]

theorem resolve?_of_absent {registry : Registry} {name : String}
    (absent : registry.get? name = none) :
    registry.resolve? name =
      (Handler.scriptName? name).bind fun _ => registry.get? Handler.script.name := by
  rw [resolve?, absent]

/-- A registry of some handlers resolves a name as all handlers do, and then asks
whether the handler is one of them. -/
theorem resolve?_ofHandlers (name : String) :
    (ofHandlers handlers).resolve? name = (builtin.resolve? name).filter (· ∈ handlers) := by
  cases found : builtin.get? name with
  | none =>
      have absent : (ofHandlers handlers).get? name = none := by
        rw [get?_ofHandlers, found, Option.filter_none]
      rw [resolve?_of_absent absent, resolve?_of_absent found, get?_ofHandlers]
      cases Handler.scriptName? name <;> rfl
  | some handler =>
      have restricted := get?_ofHandlers handlers name
      rw [found] at restricted
      rw [resolve?_of_get? found]
      by_cases listed : handler ∈ handlers
      · rw [Option.filter_some_pos (by simpa using listed)] at restricted ⊢
        exact resolve?_of_get? restricted
      · rw [Option.filter_some_neg (by simpa using listed)] at restricted ⊢
        have known : handler.name = name := by
          rw [get?_builtin] at found
          exact Handler.name_of_ofName? found
        rw [resolve?_of_absent restricted, ← known, Handler.scriptName?_name, Option.bind_none]

/-- Registries differ only in which handlers they have. -/
theorem ofHandlers_congr {handlers others : List Handler}
    (same : ∀ handler, handler ∈ others ↔ handler ∈ handlers) :
    ofHandlers others = ofHandlers handlers := by
  rw [ofHandlers, ofHandlers, Registry.mk.injEq]
  funext handler
  exact decide_eq_decide.mpr (same handler)

/-- The listing has the handlers in ascending order, each of them once, and no
others. -/
structure Ranks (handlers listing : List Handler) : Prop where
  ascending : listing.Pairwise Handler.RanksBefore
  once : ∀ handler, listing.count handler = if handler ∈ handlers then 1 else 0

theorem handlers_perm (registry : Registry) :
    registry.handlers.Perm (Handler.all.filter registry.registered) :=
  List.mergeSort_perm _ _

theorem nodup_handlers (registry : Registry) : registry.handlers.Nodup :=
  registry.handlers_perm.nodup_iff.mpr (Handler.nodup_all.filter _)

theorem mem_handlers_iff {handler : Handler} :
    handler ∈ (ofHandlers handlers).handlers ↔ handler ∈ handlers := by
  rw [(handlers_perm _).mem_iff, List.mem_filter, and_iff_right (Handler.mem_all handler)]
  exact decide_eq_true_iff

/-- Handlers of one precedence differ in their names, so they are sorted strictly. -/
theorem pairwise_handlers (registry : Registry) :
    registry.handlers.Pairwise Handler.RanksBefore := by
  have sorted : registry.handlers.Pairwise fun first second =>
      decide (¬ second.RanksBefore first) = true := by
    apply List.pairwise_mergeSort
    · intro first second third left right
      simp only [decide_eq_true_eq] at *
      exact Handler.not_ranksBefore_trans left right
    · intro first second
      rw [Bool.or_eq_true, decide_eq_true_eq, decide_eq_true_eq, ← not_and_or]
      exact fun both => Handler.ranksBefore_asymmetric both.1 both.2
  apply (sorted.and registry.nodup_handlers).imp
  intro first second related
  by_contra notBefore
  exact related.2 (Handler.eq_of_not_ranksBefore (of_decide_eq_true related.1) notBefore)

theorem ranks_handlers : Ranks handlers (ofHandlers handlers).handlers := by
  refine ⟨pairwise_handlers _, fun handler => ?_⟩
  rw [(nodup_handlers _).count, if_congr (mem_handlers_iff handlers) rfl rfl]

/-- There is one ascending listing of the handlers, so it does not matter in which
order a table holds them before they are sorted. -/
theorem Ranks.eq {handlers listing other : List Handler} (ranks : Ranks handlers listing)
    (otherRanks : Ranks handlers other) : listing = other := by
  have permutation : listing.Perm other := by
    rw [List.perm_iff_count]
    intro handler
    rw [ranks.once, otherRanks.once]
  apply permutation.eq_of_pairwise _ ranks.ascending otherRanks.ascending
  intro first second _ _ before after
  exact absurd after (Handler.ranksBefore_asymmetric before)

theorem size_ofHandlers : (ofHandlers handlers).size = handlers.dedup.length := by
  have permutation : (ofHandlers handlers).handlers.Perm handlers.dedup := by
    rw [List.perm_iff_count]
    intro handler
    rw [(ranks_handlers handlers).once, List.count_dedup]
  exact permutation.length_eq

end Registry

namespace Attribute

/-- The attribute asks for an action whose handler is none of these. Its key is an
action key, and all handlers together would have one for its action. -/
def AsksBeyond (handlers : List Handler) (attr : Attribute) : Prop :=
  attr.key ≠ renderKey ∧ ∃ parsed handler, ActionKey.parse attr.key = .ok parsed ∧
    Registry.builtin.resolve? parsed.name = some handler ∧ handler ∉ handlers

variable {handlers : List Handler} {attr : Attribute}

theorem any_request?_iff :
    (attr.request? .builtin).any (fun request => request.handler ∉ handlers) = true ↔
      attr.AsksBeyond handlers := by
  rw [Option.any_eq_true]
  constructor
  · intro given
    obtain ⟨request, asked, beyond⟩ := given
    obtain ⟨other, read, resolved⟩ := request?_eq_some_iff.mp asked
    obtain ⟨parsed, readKey, same⟩ := ActionAttribute.parse_eq_ok_iff.mp read
    rw [same] at resolved
    exact ⟨other, parsed, _, readKey, resolved, by simpa using beyond⟩
  · intro given
    obtain ⟨other, parsed, handler, readKey, resolved, beyond⟩ := given
    have read : ActionAttribute.parse attr.key attr.value =
        .ok ⟨attr.key, parsed.name, parsed.params, attr.value⟩ :=
      ActionAttribute.parse_eq_ok_iff.mpr ⟨parsed, readKey, rfl⟩
    exact ⟨⟨handler, _⟩, request?_eq_some_iff.mpr ⟨other, read, resolved⟩, by simpa using beyond⟩

instance : Decidable (attr.AsksBeyond handlers) :=
  decidable_of_iff _ any_request?_iff

theorem ignored_of_asksBeyond (beyond : attr.AsksBeyond handlers) :
    attr.Ignored (.ofHandlers handlers) := by
  obtain ⟨other, parsed, handler, readKey, resolved, absent⟩ := beyond
  refine .unregistered other readKey ?_
  rw [Registry.resolve?_ofHandlers, resolved, Option.filter_some_neg (by simpa using absent)]

end Attribute

/-- An attribute that asks for no other handler gives the same to its element
under the handlers listed as under all handlers. -/
theorem Contribution.ofAttribute_ofHandlers {handlers : List Handler} {attr : Attribute}
    (within : ¬ attr.AsksBeyond handlers) (actions : ActionMap) :
    ofAttribute (.ofHandlers handlers) actions attr = ofAttribute .builtin actions attr := by
  cases judged : AttributeRole.ofKey attr.key with
  | render | binding | foreign => simp only [ofAttribute, judged]
  | action =>
      obtain ⟨other, _⟩ := AttributeRole.ofKey_eq judged
      cases readKey : ActionKey.parse attr.key with
      | error cause => simp only [ofAttribute, judged, ActionAttribute.parse, readKey, error_bind]
      | ok parsed =>
          have resolved : (Registry.ofHandlers handlers).resolve? parsed.name =
              Registry.builtin.resolve? parsed.name := by
            rw [Registry.resolve?_ofHandlers]
            cases found : Registry.builtin.resolve? parsed.name with
            | none => rfl
            | some handler =>
                apply Option.filter_some_pos
                rw [decide_eq_true_iff]
                by_contra beyond
                exact within ⟨other, parsed, handler, readKey, found, beyond⟩
          rw [ofAttribute_action _ actions other readKey, resolved,
            ofAttribute_action _ actions other readKey]

theorem compileElement_filter_of_ignored {attributes : List Attribute} {registry : Registry}
    {kept : Attribute → Bool}
    (ignored : ∀ attr ∈ attributes, kept attr = false → attr.Ignored registry)
    (actions : ActionMap) :
    compileElement (attributes.filter kept) registry actions =
      compileElement attributes registry actions := by
  rw [compileElement_eq_arrange, compileElement_eq_arrange, unskipped_mapM_filter ignored]

/-- Under some of the handlers an element gives the result, be it a value or an
error, that it gives under all of them without the attributes that ask for
another one. Only the set of the handlers counts. They are listed by precedence
and name, each of them once, in the one order that there is, and their number is
the size. -/
theorem compileElement_ofHandlers (handlers : List Handler) (attributes : List Attribute)
    (actions : ActionMap) :
    compileElement attributes (.ofHandlers handlers) actions =
      compileElement (attributes.filter fun attr => ¬ attr.AsksBeyond handlers) .builtin actions ∧
    (∀ others : List Handler, (∀ handler, handler ∈ others ↔ handler ∈ handlers) →
      Registry.ofHandlers others = .ofHandlers handlers) ∧
    (∀ listing, listing = (Registry.ofHandlers handlers).handlers ↔
      Registry.Ranks handlers listing) ∧
    (Registry.ofHandlers handlers).size = handlers.dedup.length := by
  refine ⟨?filtered, fun others => Registry.ofHandlers_congr, fun listing => ⟨?ranks, ?unique⟩,
    Registry.size_ofHandlers handlers⟩
  case filtered =>
    have ignored : ∀ attr ∈ attributes, decide (¬ attr.AsksBeyond handlers) = false →
        attr.Ignored (.ofHandlers handlers) := by
      intro attr _ dropped
      exact Attribute.ignored_of_asksBeyond (by simpa using dropped)
    have same : ∀ attr ∈ attributes.filter fun attr => ¬ attr.AsksBeyond handlers,
        Contribution.ofAttribute (.ofHandlers handlers) actions attr =
          Contribution.ofAttribute .builtin actions attr := by
      intro attr member
      have kept := (List.mem_filter.mp member).2
      exact Contribution.ofAttribute_ofHandlers (of_decide_eq_true kept) actions
    rw [← compileElement_filter_of_ignored ignored, compileElement, compileElement,
      mapM_congr same]
  case ranks =>
    intro same
    rw [same]
    exact Registry.ranks_handlers handlers
  case unique =>
    intro ranks
    exact ranks.eq (Registry.ranks_handlers handlers)

/-- A script named in an action is run by the handler of scripts. What is written
against the grammar stays, and so does an action that no handler has. -/
example :
    ([⟨"x-fir-remove", "a"⟩, ⟨"x-fir-action-save", "a:"⟩, ⟨"x-fir-refresh", "a"⟩,
        ⟨"x-fir-remove:[", "a"⟩, ⟨"x-fir-blink", "a"⟩] : List Attribute).filter
      (fun attr => ¬ attr.AsksBeyond [.refresh]) =
    [⟨"x-fir-refresh", "a"⟩, ⟨"x-fir-remove:[", "a"⟩, ⟨"x-fir-blink", "a"⟩] := by
  decide +kernel

end EventBindings
