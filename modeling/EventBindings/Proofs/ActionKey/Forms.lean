import EventBindings.Proofs.ActionKey

namespace EventBindings

open Text

namespace ActionKey

/-!
The written forms of action keys:

    key    = "x-fir-" name | "x-fir-" name ":" name | "x-fir-" name ":[" list "]"
    list   = " "* | param ("," param)*
    param  = " "* name " "*

A form keeps the number of spaces in each place, and so no text after a name has
two forms.
-/

/-- A parameter in a list, with the number of spaces on either side of it. -/
structure ListedParam where
  before : Nat
  name : String
  after : Nat
  deriving DecidableEq, Repr

def spaces (count : Nat) : String :=
  String.ofList (List.replicate count ' ')

def ListedParam.text (param : ListedParam) : String :=
  spaces param.before ++ param.name ++ spaces param.after

/-- What stands behind the name in an action key. -/
inductive ParamsForm where
  | absent
  | single (param : String)
  | emptyList (count : Nat)
  | list (first : ListedParam) (others : List ListedParam)
  deriving DecidableEq, Repr

namespace ParamsForm

def text : ParamsForm → String
  | absent => ""
  | single param => ":" ++ param
  | emptyList count => ":[" ++ spaces count ++ "]"
  | list first others =>
      ":[" ++ String.intercalate "," ((first :: others).map ListedParam.text) ++ "]"

def params : ParamsForm → List String
  | absent => []
  | single param => [param]
  | emptyList _ => []
  | list first others => (first :: others).map ListedParam.name

/-- The character behind the form would be read on with it. -/
def continuedBy (c : Char) : ParamsForm → Bool
  | absent => isIdentifierPart c || c == ':'
  | single _ => isIdentifierPart c
  | emptyList _ => false
  | list _ _ => false

/-- What stands behind the form does not belong to it. -/
def EndsBefore (form : ParamsForm) (rest : List Char) : Prop :=
  ∀ c, rest.head? = some c → form.continuedBy c = false

end ParamsForm

/-- The way in which a key is written. -/
structure Form where
  name : String
  params : ParamsForm
  deriving DecidableEq, Repr

namespace Form

def text (form : Form) : String :=
  "x-fir-" ++ form.name ++ form.params.text

def meaning (form : Form) : ActionKey :=
  ⟨form.name, form.params.params⟩

/-- The name and all parameters are identifiers. -/
structure Named (form : Form) : Prop where
  name : IsName form.name
  params : ∀ param ∈ form.params.params, IsName param

end Form

section Spaces

/-- The text does not begin with a space. -/
def Unspaced (text : List Char) : Prop :=
  text.head? ≠ some ' '

theorem skipSpaces_append {text : List Char} (unspaced : Unspaced text) (count : Nat) :
    skipSpaces (List.replicate count ' ' ++ text) = text := by
  induction count with
  | zero =>
      cases text with
      | nil => rfl
      | cons c text =>
          have notSpace : c ≠ ' ' := by simpa [Unspaced] using unspaced
          simp [skipSpaces, notSpace]
  | succ count ih => simpa [skipSpaces, List.replicate_succ] using ih

theorem exists_spaces_of_skipSpaces (text : List Char) :
    ∃ count, text = List.replicate count ' ' ++ skipSpaces text := by
  induction text with
  | nil => exact ⟨0, rfl⟩
  | cons c text ih =>
      by_cases space : c = ' '
      · obtain ⟨count, same⟩ := ih
        refine ⟨count + 1, ?_⟩
        have skipped : skipSpaces (c :: text) = skipSpaces text := by simp [skipSpaces, space]
        rw [skipped, space, List.replicate_succ, List.cons_append, ← same]
      · exact ⟨0, by simp [skipSpaces, space]⟩

theorem spaces_append_inj {count other : Nat} {text rest : List Char} (unspaced : Unspaced text)
    (restUnspaced : Unspaced rest)
    (same : List.replicate count ' ' ++ text = List.replicate other ' ' ++ rest) :
    count = other ∧ text = rest := by
  have skipped := congrArg skipSpaces same
  rw [skipSpaces_append unspaced, skipSpaces_append restUnspaced] at skipped
  have lengths := congrArg List.length same
  simp only [skipped, List.length_append, List.length_replicate] at lengths
  exact ⟨by omega, skipped⟩

end Spaces

section Names

/-- A character that is not part of an identifier does not begin a name. -/
theorem name_append_ne_cons {name : String} (isName : IsName name) {c : Char}
    (outside : isIdentifierPart c = false) {rest text : List Char} :
    name.toList ++ rest ≠ c :: text := by
  obtain ⟨d, part, letters⟩ := List.exists_cons_of_ne_nil isName.ne_nil
  have inName := isName.isIdentifierPart d (by simp [letters])
  intro same
  rw [letters] at same
  cases same
  rw [inName] at outside
  cases outside

theorem unspaced_name {name : String} (isName : IsName name) (rest : List Char) :
    Unspaced (name.toList ++ rest) := by
  intro first
  obtain ⟨more, begins⟩ := List.head?_eq_some_iff.mp first
  exact name_append_ne_cons isName (by decide) begins

theorem name_append_inj {name other : String} (isName : IsName name) (otherIsName : IsName other)
    {text rest : List Char} (ends : EndsName text) (restEnds : EndsName rest)
    (same : name.toList ++ text = other.toList ++ rest) : name = other ∧ text = rest := by
  have taken := congrArg takeIdentifier same
  rw [takeIdentifier_append_of_isIdentifier isName ends,
    takeIdentifier_append_of_isIdentifier otherIsName restEnds, Prod.mk.injEq,
    String.toList_inj] at taken
  exact taken

end Names

section Lists

/-- What stands behind a parameter in a list. -/
def closing (rest : List Char) : List ListedParam → List Char
  | [] => ']' :: rest
  | param :: params => ',' :: (param.text.toList ++ closing rest params)

theorem closing_cases (rest : List Char) (params : List ListedParam) :
    ∃ c more, closing rest params = c :: more ∧ c ≠ ' ' ∧ isIdentifierPart c = false := by
  cases params with
  | nil => exact ⟨']', rest, rfl, by decide, by decide⟩
  | cons param params => exact ⟨',', _, rfl, by decide, by decide⟩

theorem unspaced_closing (rest : List Char) (params : List ListedParam) :
    Unspaced (closing rest params) := by
  obtain ⟨c, more, first, notSpace, _⟩ := closing_cases rest params
  simpa [Unspaced, first] using notSpace

theorem endsName_spaces_append {text : List Char} (ends : EndsName text) (count : Nat) :
    EndsName (List.replicate count ' ' ++ text) := by
  cases count with
  | zero => exact ends
  | succ count =>
      intro c first
      cases first
      decide

theorem endsName_closing (rest : List Char) (params : List ListedParam) (count : Nat) :
    EndsName (List.replicate count ' ' ++ closing rest params) := by
  obtain ⟨c, more, first, _, outside⟩ := closing_cases rest params
  apply endsName_spaces_append
  intro d found
  rw [first] at found
  cases found
  exact outside

theorem toList_text_append (param : ListedParam) (text : List Char) :
    param.text.toList ++ text = List.replicate param.before ' ' ++
      (param.name.toList ++ (List.replicate param.after ' ' ++ text)) := by
  simp [ListedParam.text, spaces]

theorem toList_list (first : ListedParam) (others : List ListedParam) (rest : List Char) :
    (String.intercalate "," ((first :: others).map ListedParam.text)).toList ++ ']' :: rest =
      first.text.toList ++ closing rest others := by
  induction others generalizing first with
  | nil => simp [closing]
  | cons second others ih =>
      have behind := ih second
      simp only [List.map_cons] at behind ⊢
      rw [String.intercalate_cons_cons, closing, ← behind]
      simp

theorem listedParam_append_inj {param other : ListedParam} (isName : IsName param.name)
    (otherIsName : IsName other.name) {params others : List ListedParam} {text rest : List Char}
    (same : param.text.toList ++ closing text params = other.text.toList ++ closing rest others) :
    param = other ∧ closing text params = closing rest others := by
  rw [toList_text_append, toList_text_append] at same
  obtain ⟨before, same⟩ :=
    spaces_append_inj (unspaced_name isName _) (unspaced_name otherIsName _) same
  obtain ⟨name, same⟩ := name_append_inj isName otherIsName (endsName_closing _ _ _)
    (endsName_closing _ _ _) same
  obtain ⟨after, behind⟩ :=
    spaces_append_inj (unspaced_closing text params) (unspaced_closing rest others) same
  cases param
  cases other
  exact ⟨by simp_all, behind⟩

theorem closing_inj {params others : List ListedParam} {text rest : List Char}
    (named : ∀ param ∈ params, IsName param.name) (othersNamed : ∀ param ∈ others, IsName param.name)
    (same : closing text params = closing rest others) : params = others ∧ text = rest := by
  induction params generalizing others with
  | nil =>
      cases others with
      | nil => exact ⟨rfl, (List.cons.inj same).2⟩
      | cons other others => exact absurd (List.cons.inj same).1 (by decide)
  | cons param params ih =>
      cases others with
      | nil => exact absurd (List.cons.inj same).1 (by decide)
      | cons other others =>
          rw [List.forall_mem_cons] at named othersNamed
          obtain ⟨rfl, behind⟩ :=
            listedParam_append_inj named.1 othersNamed.1 (List.cons.inj same).2
          obtain ⟨rfl, rests⟩ := ih named.2 othersNamed.2 behind
          exact ⟨rfl, rests⟩

end Lists

namespace ParamsForm

theorem toList_emptyList (count : Nat) :
    (emptyList count).text.toList = ':' :: '[' :: (List.replicate count ' ' ++ [']']) := by
  simp [text, spaces]

theorem toList_list_append (first : ListedParam) (others : List ListedParam)
    (rest : List Char) : (list first others).text.toList ++ rest =
      ':' :: '[' :: (first.text.toList ++ closing rest others) := by
  rw [← ActionKey.toList_list]
  simp [text]

theorem toList_list (first : ListedParam) (others : List ListedParam) :
    (list first others).text.toList =
      ':' :: '[' :: (first.text.toList ++ closing [] others) := by
  rw [← toList_list_append, List.append_nil]

theorem absent_or_colon (form : ParamsForm) :
    form = absent ∨ ∃ behind, form.text.toList = ':' :: behind := by
  cases form with
  | absent => exact .inl rfl
  | single param => exact .inr ⟨param.toList, by simp [text]⟩
  | emptyList count => exact .inr ⟨_, toList_emptyList count⟩
  | list first others => exact .inr ⟨_, toList_list first others⟩

theorem endsName_text_append {form : ParamsForm} {rest : List Char}
    (ends : form.EndsBefore rest) : EndsName (form.text.toList ++ rest) := by
  intro c first
  rcases form.absent_or_colon with rfl | ⟨behind, colon⟩
  · have outside := ends c first
    rw [continuedBy, Bool.or_eq_false_iff] at outside
    exact outside.1
  · rw [colon] at first
    cases first
    decide

theorem endsBefore_nil (form : ParamsForm) : form.EndsBefore [] := nofun

theorem absent_text_ne_emptyList (count : Nat) : absent.text ≠ (emptyList count).text := by
  intro same
  have letters := congrArg String.toList same
  rw [toList_emptyList] at letters
  cases letters

theorem single_text_ne_list {param : String} (isName : IsName param) (first : ListedParam)
    (others : List ListedParam) : (single param).text ≠ (list first others).text := by
  intro same
  have letters := congrArg String.toList same
  rw [toList_list, text, String.toList_append] at letters
  have bracket : param.toList ++ [] = '[' :: (first.text.toList ++ closing [] others) := by
    simpa using letters
  exact name_append_ne_cons isName (by decide) bracket

theorem emptyList_text_inj {count other : Nat}
    (same : (emptyList count).text = (emptyList other).text) : count = other := by
  have letters := congrArg String.toList same
  rw [toList_emptyList, toList_emptyList, List.cons.injEq, List.cons.injEq] at letters
  exact (spaces_append_inj (by simp [Unspaced]) (by simp [Unspaced]) letters.2.2).1

theorem list_text_inj {first second : ListedParam} {others rest : List ListedParam}
    (named : ∀ param ∈ first :: others, IsName param.name)
    (otherNamed : ∀ param ∈ second :: rest, IsName param.name)
    (same : (list first others).text = (list second rest).text) :
    first = second ∧ others = rest := by
  have letters := congrArg String.toList same
  rw [toList_list, toList_list, List.cons.injEq, List.cons.injEq] at letters
  have closed : closing [] (first :: others) = closing [] (second :: rest) := by
    rw [closing, closing, letters.2.2]
  exact List.cons.inj (closing_inj named otherNamed closed).1

/-- Two ways to write the same parameters differ in their text. -/
theorem eq_of_text_eq {form other : ParamsForm} (named : ∀ param ∈ form.params, IsName param)
    (sameParams : form.params = other.params) (same : form.text = other.text) : form = other := by
  have otherNamed : ∀ param ∈ other.params, IsName param := by rwa [← sameParams]
  cases form with
  | absent =>
      cases other with
      | absent => rfl
      | emptyList count => exact absurd same (absent_text_ne_emptyList count)
      | single | list => cases sameParams
  | single param =>
      cases other with
      | single other => rw [List.singleton_inj.mp sameParams]
      | list first others =>
          exact absurd same (single_text_ne_list (named param List.mem_cons_self) first others)
      | absent | emptyList => cases sameParams
  | emptyList count =>
      cases other with
      | absent => exact absurd same.symm (absent_text_ne_emptyList count)
      | emptyList other => rw [emptyList_text_inj same]
      | single | list => cases sameParams
  | list first others =>
      cases other with
      | single param =>
          have isName := otherNamed param List.mem_cons_self
          exact absurd same.symm (single_text_ne_list isName first others)
      | list second rest =>
          rw [params, List.forall_mem_map] at named otherNamed
          obtain ⟨rfl, rfl⟩ := list_text_inj named otherNamed same
          rfl
      | absent | emptyList => cases sameParams

end ParamsForm

end ActionKey

end EventBindings
