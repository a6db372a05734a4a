namespace EventBindings

/-!
The caller's map from action names to actions.
-/

/-- A map from names to actions. Each name occurs once. -/
structure ActionMap where
  entries : List (String × String) := []
  deriving DecidableEq, Repr

namespace ActionMap

def empty : ActionMap := {}

instance : EmptyCollection ActionMap := ⟨empty⟩

instance : Inhabited ActionMap := ⟨empty⟩

def get? (map : ActionMap) (name : String) : Option String :=
  map.entries.lookup name

def erase (map : ActionMap) (name : String) : ActionMap :=
  ⟨map.entries.filter (fun entry => entry.1 != name)⟩

/-- The map with the action under the name, in place of any other. -/
def insert (map : ActionMap) (name action : String) : ActionMap :=
  ⟨(name, action) :: (map.erase name).entries⟩

/-- The map of a list of entries. The last entry under a name counts. -/
def ofList (entries : List (String × String)) : ActionMap :=
  entries.foldl (fun map entry => map.insert entry.1 entry.2) empty

theorem get?_erase (map : ActionMap) (erased name : String) :
    (map.erase erased).get? name = if name = erased then none else map.get? name := by
  obtain ⟨entries⟩ := map
  simp only [get?, erase]
  induction entries with
  | nil => simp
  | cons entry rest ih =>
      obtain ⟨key, action⟩ := entry
      by_cases same : key = erased
      · subst same
        by_cases asked : name = key
        · simpa [asked] using ih
        · simpa [List.lookup_cons, beq_eq_false_iff_ne.mpr asked, asked] using ih
      · by_cases asked : name = key
        · subst asked
          simp [same]
        · simpa [List.lookup_cons, beq_eq_false_iff_ne.mpr asked, same] using ih

theorem get?_insert (map : ActionMap) (inserted action name : String) :
    (map.insert inserted action).get? name =
      if name = inserted then some action else map.get? name := by
  by_cases asked : name = inserted
  · simp [get?, insert, asked]
  · have kept := get?_erase map inserted name
    simpa [get?, insert, List.lookup_cons, beq_eq_false_iff_ne.mpr asked, asked] using kept

end ActionMap

end EventBindings
