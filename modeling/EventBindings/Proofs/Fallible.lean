import Mathlib.Control.Monad.Basic

namespace EventBindings

/-!
Computations that may fail: when a chain of them, or one for each member of a
list, succeeds, and which failure it reports.
-/

variable {ε δ α β : Type}

@[simp] theorem ok_bind (a : α) (next : α → Except ε β) : (Except.ok a >>= next) = next a := rfl

@[simp] theorem error_bind (fault : ε) (next : α → Except ε β) :
    (Except.error fault >>= next) = .error fault := rfl

@[simp] theorem pure_eq_ok (a : α) : (pure a : Except ε α) = .ok a := rfl

@[simp] theorem throw_eq_error (fault : ε) : (throw fault : Except ε α) = .error fault := rfl

@[simp] theorem mapError_ok (function : ε → δ) (a : α) :
    (Except.ok a : Except ε α).mapError function = .ok a := rfl

@[simp] theorem mapError_error (function : ε → δ) (fault : ε) :
    (Except.error fault : Except ε α).mapError function = .error (function fault) := rfl

theorem bind_eq_ok_iff {first : Except ε α} {next : α → Except ε β} {b : β} :
    first >>= next = .ok b ↔ ∃ a, first = .ok a ∧ next a = .ok b := by
  cases first <;> simp

theorem map_eq_ok_iff {function : α → β} {first : Except ε α} {b : β} :
    function <$> first = .ok b ↔ ∃ a, first = .ok a ∧ function a = b := by
  cases first <;> simp

theorem mapError_eq_ok_iff {function : ε → δ} {first : Except ε α} {a : α} :
    first.mapError function = .ok a ↔ first = .ok a := by
  cases first <;> simp

theorem map_mapError (function : ε → δ) (see : α → β) (first : Except ε α) :
    see <$> first.mapError function = (see <$> first).mapError function := by
  cases first <;> rfl

theorem bind_eq_error_iff {first : Except ε α} {next : α → Except ε β} {fault : ε} :
    first >>= next = .error fault ↔
      first = .error fault ∨ ∃ a, first = .ok a ∧ next a = .error fault := by
  cases first <;> simp

theorem map_eq_error_iff {function : α → β} {first : Except ε α} {fault : ε} :
    function <$> first = .error fault ↔ first = .error fault := by
  cases first <;> simp

section Alike

variable {γ : Type} {see : α → γ} {first other : Except ε α}
  (alike : see <$> first = see <$> other)
include alike

theorem exists_ok_iff_of_map_eq : (∃ a, first = .ok a) ↔ ∃ a, other = .ok a := by
  cases first <;> cases other <;> simp_all

theorem eq_error_iff_of_map_eq {fault : ε} : first = .error fault ↔ other = .error fault := by
  rw [← map_eq_error_iff, alike, map_eq_error_iff]

/-- Computations that look alike go on alike, if they do so from values that look
alike. -/
theorem map_bind_congr {ζ : Type} {seeLast : β → ζ} {next otherNext : α → Except ε β}
    (goesOn : ∀ a b, first = .ok a → see a = see b → seeLast <$> next a = seeLast <$> otherNext b) :
    seeLast <$> (first >>= next) = seeLast <$> (other >>= otherNext) := by
  cases first with
  | error fault => rw [(eq_error_iff_of_map_eq alike).mp rfl]; rfl
  | ok a =>
      obtain ⟨b, rfl, same⟩ := map_eq_ok_iff.mp alike.symm
      exact goesOn a b rfl same.symm

end Alike

theorem mapM_of_forall {function : α → Except ε β} {result : α → β} {items : List α}
    (all : ∀ item ∈ items, function item = .ok (result item)) :
    items.mapM function = .ok (items.map result) := by
  induction items with
  | nil => rfl
  | cons item items ih =>
      rw [List.forall_mem_cons] at all
      simp [all.1, ih all.2]

theorem mapM_eq_some_map {function : α → Option β} {result : α → β} {items : List α}
    (all : ∀ item ∈ items, function item = some (result item)) :
    items.mapM function = some (items.map result) := by
  induction items with
  | nil => rfl
  | cons item items ih =>
      rw [List.forall_mem_cons] at all
      simp [all.1, ih all.2]

theorem mapM_cons_eq_ok_iff {function : α → Except ε β} {first : α} {items : List α}
    {results : List β} :
    (first :: items).mapM function = .ok results ↔
      ∃ result others, function first = .ok result ∧ items.mapM function = .ok others ∧
        results = result :: others := by
  rw [List.mapM_cons]
  cases function first <;> cases items.mapM function <;> simp [eq_comm]

theorem forall_of_mapM {function : α → Except ε β} {items : List α} {results : List β}
    (computed : items.mapM function = .ok results) :
    ∀ item ∈ items, ∃ result, function item = .ok result := by
  induction items generalizing results with
  | nil => exact nofun
  | cons item items ih =>
      obtain ⟨first, others, firstComputed, restComputed, _⟩ := mapM_cons_eq_ok_iff.mp computed
      exact List.forall_mem_cons.mpr ⟨⟨first, firstComputed⟩, ih restComputed⟩

/-- Where a list of computations succeeds, each result stands in the place of
its item. -/
theorem getElem?_of_mapM {function : α → Except ε β} {items : List α} {results : List β}
    (computed : items.mapM function = .ok results) {place : Nat} {result : β} :
    results[place]? = some result ↔
      ∃ item, items[place]? = some item ∧ function item = .ok result := by
  induction items generalizing results place with
  | nil =>
      cases computed
      simp
  | cons item items ih =>
      obtain ⟨first, others, firstComputed, restComputed, rfl⟩ := mapM_cons_eq_ok_iff.mp computed
      cases place with
      | zero => simp [firstComputed]
      | succ place => simpa using ih restComputed

theorem exists_of_mapM {function : α → Except ε β} {items : List α} {results : List β}
    (computed : items.mapM function = .ok results) :
    ∀ result ∈ results, ∃ item ∈ items, function item = .ok result := by
  intro result member
  obtain ⟨place, found⟩ := List.mem_iff_getElem?.mp member
  obtain ⟨item, foundItem, succeeds⟩ := (getElem?_of_mapM computed).mp found
  exact ⟨item, List.mem_of_getElem? foundItem, succeeds⟩

theorem mapM_congr {function other : α → Except ε β} {items : List α}
    (same : ∀ item ∈ items, function item = other item) :
    items.mapM function = items.mapM other := by
  induction items with
  | nil => rfl
  | cons item items ih =>
      rw [List.forall_mem_cons] at same
      rw [List.mapM_cons, List.mapM_cons, same.1, ih same.2]

theorem map_mapM {γ : Type} (see : β → γ) (function : α → Except ε β) (items : List α) :
    List.map see <$> items.mapM function = items.mapM fun item => see <$> function item := by
  induction items with
  | nil => rfl
  | cons item items ih =>
      rw [List.mapM_cons, List.mapM_cons, ← ih]
      cases function item <;> cases items.mapM function <;> rfl

theorem mapM_cons_eq_error_iff {function : α → Except ε β} {first : α} {items : List α}
    {fault : ε} :
    (first :: items).mapM function = .error fault ↔
      function first = .error fault ∨
        (∃ result, function first = .ok result) ∧ items.mapM function = .error fault := by
  rw [List.mapM_cons]
  cases function first <;> cases items.mapM function <;> simp

/-- A list of computations fails as the first of them that does. -/
theorem mapM_eq_error_iff {function : α → Except ε β} {items : List α} {fault : ε} :
    items.mapM function = .error fault ↔
      ∃ before item after, items = before ++ item :: after ∧
        (∀ earlier ∈ before, ∃ result, function earlier = .ok result) ∧
        function item = .error fault := by
  induction items with
  | nil => simp
  | cons first items ih =>
      rw [mapM_cons_eq_error_iff, ih]
      constructor
      · intro either
        rcases either with failed | ⟨succeeds, before, item, after, rfl, succeed, failed⟩
        · exact ⟨[], first, items, rfl, nofun, failed⟩
        · exact ⟨first :: before, item, after, rfl,
            List.forall_mem_cons.mpr ⟨succeeds, succeed⟩, failed⟩
      · intro given
        obtain ⟨before, item, after, same, succeed, failed⟩ := given
        cases before with
        | nil =>
            cases same
            exact .inl failed
        | cons earlier before =>
            cases same
            have parts := List.forall_mem_cons.mp succeed
            exact .inr ⟨parts.1, before, item, after, rfl, parts.2, failed⟩

/-- A run fails at the first item at which a step does. -/
theorem foldlM_eq_error_iff {σ : Type} {step : σ → α → Except ε σ} {items : List α} {state : σ}
    {fault : ε} :
    items.foldlM step state = .error fault ↔
      ∃ before item after middle, items = before ++ item :: after ∧
        before.foldlM step state = .ok middle ∧ step middle item = .error fault := by
  induction items generalizing state with
  | nil => simp
  | cons first items ih =>
      rw [List.foldlM_cons, bind_eq_error_iff]
      constructor
      · intro either
        obtain failed | ⟨next, stepped, failed⟩ := either
        · exact ⟨[], first, items, state, rfl, rfl, failed⟩
        · obtain ⟨before, item, after, middle, rfl, run, failed⟩ := ih.mp failed
          exact ⟨first :: before, item, after, middle, rfl,
            bind_eq_ok_iff.mpr ⟨next, stepped, run⟩, failed⟩
      · intro given
        obtain ⟨before, item, after, middle, same, run, failed⟩ := given
        cases before with
        | nil =>
            cases same
            cases run
            exact .inl failed
        | cons earlier before =>
            cases same
            obtain ⟨next, stepped, rest⟩ := bind_eq_ok_iff.mp run
            exact .inr ⟨next, stepped, ih.mpr ⟨before, item, after, middle, rfl, rest, failed⟩⟩

end EventBindings
