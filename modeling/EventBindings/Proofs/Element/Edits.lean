import EventBindings.Element.Edit
import EventBindings.Proofs.Element.MapLookups
import EventBindings.Proofs.Registry
import Mathlib.Data.List.Infix

namespace EventBindings

/-!
What a run of edits leaves as it was. An edit touches the attributes under one
key, or the action under one name, or nothing but the order of the attributes.
An element whose edits touch only what it does not read compiles to what it
compiled to before.
-/

namespace ElementEdit

/-- The key of the attributes that the edit adds, changes or takes away. -/
def key? : ElementEdit → Option String
  | .addAttribute key _ | .setAttribute key _ | .removeAttribute key => some key
  | .reverseAttributes | .setAction _ _ | .removeAction _ => none

/-- The name under which the edit changes the map. -/
def name? : ElementEdit → Option String
  | .setAction name _ | .removeAction name => some name
  | .addAttribute _ _ | .setAttribute _ _ | .removeAttribute _ | .reverseAttributes => none

/-- None of the edits touches the attributes under the key of this one. -/
def leave (edits : List ElementEdit) (attr : Attribute) : Bool :=
  edits.all fun edit => edit.key? ≠ some attr.key

theorem leave_eq_false_iff {edits : List ElementEdit} {attr : Attribute} :
    leave edits attr = false ↔ ∃ edit ∈ edits, edit.key? = some attr.key := by
  simp [leave]

end ElementEdit

namespace ElementDraft

/-- The element after all of the edits. -/
def run (draft : ElementDraft) (edits : List ElementEdit) : ElementDraft :=
  edits.foldl apply draft

/-- The element with nothing done to it but that its attributes are turned
round, as often as the edits do so. -/
def turned (draft : ElementDraft) (edits : List ElementEdit) : ElementDraft :=
  { draft with attributes := List.reverse^[edits.count .reverseAttributes] draft.attributes }

section Frame

variable {kept : Attribute → Bool} {draft : ElementDraft} {edit : ElementEdit}
  {edits : List ElementEdit}

theorem mem_attributes_turned {attr : Attribute} :
    attr ∈ (draft.turned edits).attributes ↔ attr ∈ draft.attributes := by
  simp only [turned]
  induction edits.count .reverseAttributes with
  | zero => rfl
  | succ times ih => rw [Function.iterate_succ_apply', List.mem_reverse, ih]

theorem filter_attributes_turned (draft : ElementDraft) (edits : List ElementEdit) :
    (draft.turned edits).attributes.filter kept =
      List.reverse^[edits.count .reverseAttributes] (draft.attributes.filter kept) := by
  simp only [turned]
  induction edits.count .reverseAttributes with
  | zero => rfl
  | succ times ih =>
      rw [Function.iterate_succ_apply', Function.iterate_succ_apply', List.filter_reverse, ih]

theorem filter_map_of_unchanged {α : Type} {kept : α → Bool} {change : α → α}
    (dropped : ∀ item, kept item = false → kept (change item) = false)
    (unchanged : ∀ item, kept item = true → change item = item) (items : List α) :
    (items.map change).filter kept = items.filter kept := by
  induction items with
  | nil => rfl
  | cons item items ih =>
      cases judged : kept item with
      | true => simp [unchanged item judged, judged, ih]
      | false => simp [dropped item judged, judged, ih]

/-- An edit leaves the attributes under other keys. -/
theorem filter_attributes_apply
    (touched : ∀ attr : Attribute, edit.key? = some attr.key → kept attr = false) :
    (draft.apply edit).attributes.filter kept = (draft.turned [edit]).attributes.filter kept := by
  cases edit with
  | addAttribute key value =>
      have dropped : kept ⟨key, value⟩ = false := touched _ rfl
      simp [apply, turned, dropped]
  | setAttribute key value =>
      apply filter_map_of_unchanged
      · intro attr dropped
        by_cases same : attr.key = key
        · rw [if_pos same]
          exact touched ⟨key, value⟩ rfl
        · rwa [if_neg same]
      · intro attr keeps
        apply if_neg
        intro same
        exact Bool.false_ne_true ((touched attr (congrArg some same.symm)).symm.trans keeps)
  | removeAttribute key =>
      have stays : ∀ attr ∈ draft.attributes, (kept attr && attr.key != key) = kept attr := by
        intro attr _
        by_cases same : attr.key = key
        · rw [touched attr (congrArg some same.symm), Bool.false_and]
        · rw [bne_iff_ne.mpr same, Bool.and_true]
      simp only [apply, List.filter_filter]
      exact List.filter_congr stays
  | reverseAttributes => rfl
  | setAction | removeAction => rfl

/-- A run of edits leaves the attributes under other keys. -/
theorem filter_attributes_run
    (touched : ∀ edit ∈ edits, ∀ attr : Attribute,
      edit.key? = some attr.key → kept attr = false) :
    (draft.run edits).attributes.filter kept = (draft.turned edits).attributes.filter kept := by
  induction edits generalizing draft with
  | nil => rfl
  | cons edit edits ih =>
      calc (draft.run (edit :: edits)).attributes.filter kept
          = ((draft.apply edit).turned edits).attributes.filter kept :=
            ih fun other member => touched other (List.mem_cons_of_mem _ member)
        _ = List.reverse^[edits.count .reverseAttributes]
              ((draft.turned [edit]).attributes.filter kept) := by
            rw [filter_attributes_turned, filter_attributes_apply (touched edit List.mem_cons_self)]
        _ = (draft.turned (edit :: edits)).attributes.filter kept := by
            rw [filter_attributes_turned, filter_attributes_turned, ← Function.iterate_add_apply,
              ← List.count_append, (List.perm_append_singleton edit edits).count_eq]

/-- An edit leaves the actions under other names. -/
theorem get?_apply {name : String} (other : edit.name? ≠ some name) :
    (draft.apply edit).actions.get? name = draft.actions.get? name := by
  cases edit with
  | setAction changed action =>
      rw [apply, ActionMap.get?_insert, if_neg fun same => other (congrArg some same.symm)]
  | removeAction changed =>
      rw [apply, ActionMap.get?_erase, if_neg fun same => other (congrArg some same.symm)]
  | addAttribute | setAttribute | removeAttribute | reverseAttributes => rfl

/-- A run of edits leaves the actions under other names. -/
theorem get?_run {name : String} (other : ∀ edit ∈ edits, edit.name? ≠ some name) :
    (draft.run edits).actions.get? name = draft.actions.get? name := by
  induction edits generalizing draft with
  | nil => rfl
  | cons edit edits ih =>
      have behind : ((draft.apply edit).run edits).actions.get? name =
          (draft.apply edit).actions.get? name :=
        ih fun later member => other later (List.mem_cons_of_mem _ member)
      exact behind.trans (get?_apply (other edit List.mem_cons_self))

end Frame

/-- The element does not read what the edit touches: attributes under the key of
the edit are ignored, and none refers to its name. -/
structure Unread (registry : Registry) (draft : ElementDraft) (edit : ElementEdit) : Prop where
  key : ∀ attr : Attribute, edit.key? = some attr.key → attr.Ignored registry
  name : ∀ name, edit.name? = some name →
    ∀ attr ∈ draft.attributes, ¬ attr.References registry name

section Unread

variable {registry : Registry} {draft : ElementDraft} {edits : List ElementEdit}

/-- Edits of what the element does not read leave what it compiles to, except that
they may turn its attributes round. -/
theorem lines_run_of_unread (unread : ∀ edit ∈ edits, draft.Unread registry edit) :
    (draft.run edits).lines registry = (draft.turned edits).lines registry := by
  have touched : ∀ edit ∈ edits, ∀ attr : Attribute,
      edit.key? = some attr.key → ElementEdit.leave edits attr = false :=
    fun edit member attr named => ElementEdit.leave_eq_false_iff.mpr ⟨edit, member, named⟩
  have ignored (attributes : List Attribute) :
      ∀ attr ∈ attributes, ElementEdit.leave edits attr = false → attr.Ignored registry := by
    intro attr _ dropped
    obtain ⟨edit, member, named⟩ := ElementEdit.leave_eq_false_iff.mp dropped
    exact (unread edit member).key attr named
  have agree : ∀ attr ∈ (draft.turned edits).attributes, ∀ name,
      attr.References registry name →
        (draft.run edits).actions.get? name = draft.actions.get? name := by
    intro attr member name references
    apply get?_run
    intro edit edited named
    exact (unread edit edited).name name named attr (mem_attributes_turned.mp member) references
  have same : compileElement (draft.run edits).attributes registry (draft.run edits).actions =
      compileElement (draft.turned edits).attributes registry draft.actions := by
    rw [← compileElement_congr agree, ← compileElement_filter_of_ignored (ignored _),
      filter_attributes_run touched, compileElement_filter_of_ignored (ignored _)]
  rw [lines, lines, same]
  rfl

theorem lines_cons_linesAfterEach (registry : Registry) (draft : ElementDraft)
    (edits : List ElementEdit) :
    draft.lines registry :: draft.linesAfterEach registry edits =
      edits.inits.map fun done => (draft.run done).lines registry := by
  induction edits generalizing draft with
  | nil => rfl
  | cons edit edits ih =>
      rw [linesAfterEach, ih, List.inits_cons, List.map_cons, List.map_map]
      rfl

/-- While an element is edited where it is not read, and its attributes keep their
order, every answer is what the element compiled to at first. -/
theorem linesAfterEach_of_unread (unread : ∀ edit ∈ edits, draft.Unread registry edit)
    (ordered : .reverseAttributes ∉ edits) :
    draft.linesAfterEach registry edits = List.replicate edits.length (draft.lines registry) := by
  have constant : draft.lines registry :: draft.linesAfterEach registry edits =
      List.replicate (edits.length + 1) (draft.lines registry) := by
    rw [lines_cons_linesAfterEach, List.eq_replicate_iff, List.length_map, List.length_inits]
    refine ⟨rfl, ?_⟩
    intro answer member
    obtain ⟨done, begun, rfl⟩ := List.mem_map.mp member
    have within := ((List.mem_inits done edits).mp begun).subset
    have straight : done.count .reverseAttributes = 0 :=
      List.count_eq_zero.mpr fun turns => ordered (within turns)
    rw [lines_run_of_unread fun edit edited => unread edit (within edited), turned, straight]
    rfl
  rw [List.replicate_succ] at constant
  exact (List.cons.inj constant).2

/-- An attribute of another kind is not read, and neither is an action that none
refers to. -/
example :
    linesAfterEach .builtin ⟨[⟨"x-fir-remove", "delete"⟩], ∅⟩
      [.addAttribute "class" "wide", .setAction "save" "doSave()"] =
    [.ok "@fir:delete:ok.nohtml=\"$fir.removeEl()\"",
      .ok "@fir:delete:ok.nohtml=\"$fir.removeEl()\""] := by
  decide +kernel

end Unread

end ElementDraft

end EventBindings
