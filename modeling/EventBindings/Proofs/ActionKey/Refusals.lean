import EventBindings.Proofs.ActionKey.Reading

namespace EventBindings

open Text

namespace ActionKey

/-!
Where keys are refused. A reader stops before the first character that no key has in this
place, and only a list that breaks off behind a parameter is refused where it opens.
-/

/-- Some key begins with the text. -/
def Begins (text : List Char) : Prop :=
  ∃ more parsed, parse (String.ofList (text ++ more)) = .ok parsed

/-- A key up to the colon behind its name. -/
def uptoColon (name : String) : List Char :=
  actionKeyStart.toList ++ (name.toList ++ [':'])

/-- Parameters in a list, a comma behind each of them. -/
def listed : List ListedParam → List Char
  | [] => []
  | param :: params => param.text.toList ++ ',' :: listed params

/-- In a list that has been read so far a parameter is due, and none begins with the next
character. -/
inductive ParamDue : List Char → Option Char → Prop
  | intro {params : List ListedParam} (count : Nat) {next : Option Char}
      (named : ∀ param ∈ params, IsName param.name)
      (other : ∀ c, next = some c →
        isIdentifierStart c = false ∧ c ≠ ' ' ∧ (params = [] → c ≠ ']')) :
      ParamDue (listed params ++ List.replicate count ' ') next

/-- A parameter in a list, with the spaces after it, stands before something other than a
comma or the closing bracket, or before the end. -/
inductive BreaksOff : List Char → Prop
  | intro {params : List ListedParam} {last : ListedParam} {rest : List Char}
      (named : ∀ param ∈ params, IsName param.name) (isName : IsName last.name)
      (whole : EndsName (List.replicate last.after ' ' ++ rest))
      (other : ∀ c, rest.head? = some c → c ∉ [' ', ',', ']']) :
      BreaksOff (listed params ++ (last.text.toList ++ rest))

/-- In what has been read of a key something is expected that cannot begin with the next
character, or at the end. -/
inductive Stuck : Expectation → List Char → Option Char → Prop
  | name {next : Option Char} (other : ∀ c, next = some c → isIdentifierStart c = false) :
      Stuck .name actionKeyStart.toList next
  | parameters {name : String} {next : Option Char} (isName : IsName name)
      (other : ∀ c, next = some c → isIdentifierStart c = false ∧ c ≠ '[') :
      Stuck .parameters (uptoColon name) next
  | parameter {name : String} {inside : List Char} {next : Option Char} (isName : IsName name)
      (due : ParamDue inside next) : Stuck .parameter (uptoColon name ++ '[' :: inside) next
  | endOfKey {form : Form} {c : Char} (named : form.Named)
      (other : form.params.continuedBy c = false) : Stuck .endOfKey form.text.toList (some c)

/-- The list of the key breaks off. It opens at the offset. -/
def ListBreaksOff (key : String) (opened : Nat) : Prop :=
  ∃ name inside, IsName name ∧ key.toList = uptoColon name ++ '[' :: inside ∧
    BreaksOff inside ∧ opened = byteLength (uptoColon name)

section Names

theorem takeIdentifier_eq_nil_iff {text rest : List Char} : takeIdentifier text = ([], rest) ↔
    rest = text ∧ ∀ c, text.head? = some c → isIdentifierStart c = false := by
  cases text with
  | nil => simp [takeIdentifier]
  | cons c text =>
      rw [takeIdentifier]
      cases start : isIdentifierStart c with
      | false => simpa [start] using eq_comm
      | true => simp [start]

theorem exists_name_of_takeIdentifier {text : List Char} (found : (takeIdentifier text).1 ≠ []) :
    ∃ name rest, IsName name ∧ EndsName rest ∧ text = name.toList ++ rest := by
  refine ⟨String.ofList (takeIdentifier text).1, (takeIdentifier text).2,
    isName_of_takeIdentifier rfl found, endsName_of_takeIdentifier rfl found, ?_⟩
  rw [String.toList_ofList, takeIdentifier_append]

theorem endsName_cons {c : Char} (notPart : isIdentifierPart c = false) (rest : List Char) :
    EndsName (c :: rest) := by
  intro first same
  cases same
  exact notPart

theorem unspaced_skipSpaces (text : List Char) : Unspaced (skipSpaces text) := by
  intro first
  have stops := List.head?_dropWhile_not (· == ' ') text
  rw [skipSpaces] at first
  rw [first] at stops
  exact absurd stops (by decide)

end Names

section Lists

variable {total opened : Nat} {fault : Fault} {params : List ListedParam}

theorem readParams_listed_eq_error_iff (named : ∀ param ∈ params, IsName param.name)
    (text : List Char) : readParams total opened (skipSpaces (listed params ++ text)) = .error fault ↔
      readParams total opened (skipSpaces text) = .error fault := by
  induction params with
  | nil => rfl
  | cons param params ih =>
      rw [List.forall_mem_cons] at named
      have unspaced : Unspaced (',' :: (listed params ++ text)) := by simp [Unspaced]
      have ends : EndsName (',' :: (listed params ++ text)) := endsName_cons (by decide) _
      rw [listed, List.append_assoc, List.cons_append, toList_text_append,
        skipSpaces_append (unspaced_name named.1 _),
        readParams_name named.1 (endsName_spaces_append ends param.after),
        skipSpaces_append unspaced]
      simp [bind_eq_error_iff, ih named.2]

/-- The parameters with a comma behind them do not matter for what is wrong with a list. -/
theorem readList_listed_eq_error_iff (named : ∀ param ∈ params, IsName param.name)
    {text : List Char} (bare : params = [] → (skipSpaces text).head? ≠ some ']') :
    readList total opened (listed params ++ text) = .error fault ↔
      readParams total opened (skipSpaces text) = .error fault := by
  rw [← readParams_listed_eq_error_iff named, readList]
  split
  next after closed =>
    cases params with
    | nil =>
        have first := bare rfl
        rw [listed, List.nil_append] at closed
        rw [closed] at first
        exact absurd rfl first
    | cons param params =>
        have isName := named param List.mem_cons_self
        rw [listed, List.append_assoc, toList_text_append,
          skipSpaces_append (unspaced_name isName _)] at closed
        exact absurd closed (name_append_ne_cons isName (by decide))
  next => rfl

theorem readList_of_paramDue {inside rest : List Char} (due : ParamDue inside rest.head?) :
    readList total opened (inside ++ rest) =
      .error (.expected .parameter (offsetOf total rest)) := by
  obtain ⟨count, named, other⟩ := due
  have unspaced : Unspaced rest := fun first => (other ' ' first).2.1 rfl
  have skipped := skipSpaces_append unspaced count
  have taken : takeIdentifier rest = ([], rest) :=
    takeIdentifier_eq_nil_iff.mpr ⟨rfl, fun c first => (other c first).1⟩
  rw [List.append_assoc, readList_listed_eq_error_iff named, skipped, readParams]
  · split
    next behind empty =>
      rw [taken] at empty
      cases empty
      rfl
    next found =>
      rw [taken] at found
      cases found
  · intro first closed
    rw [skipped] at closed
    exact (other ']' closed).2.2 first rfl

theorem readList_of_breaksOff {inside : List Char} (breaksOff : BreaksOff inside) :
    readList total opened inside = .error (.expected .parameters opened) := by
  obtain @⟨params, last, rest, named, isName, whole, other⟩ := breaksOff
  have unspaced : Unspaced rest := fun first => other ' ' first (by simp)
  rw [readList_listed_eq_error_iff named, toList_text_append,
    skipSpaces_append (unspaced_name isName _), readParams_name isName whole,
    skipSpaces_append unspaced]
  · split
    next more => exact absurd (by simp) (other ',' rfl)
    next after => exact absurd (by simp) (other ']' rfl)
    next => rfl
  · intro _ closed
    obtain ⟨after, closed⟩ := List.head?_eq_some_iff.mp closed
    rw [toList_text_append, skipSpaces_append (unspaced_name isName _)] at closed
    exact name_append_ne_cons isName (by decide) closed

theorem listed_concat (params : List ListedParam) (last : ListedParam) :
    listed (params ++ [last]) = listed params ++ (last.text.toList ++ [',']) := by
  induction params with
  | nil => simp [listed]
  | cons param params ih => simp [listed, ih]

/-- What is wrong behind parameters that have been read. The spaces stand before the text
and have been passed over. -/
theorem refused_of_readParams {text : List Char} (named : ∀ param ∈ params, IsName param.name)
    (unread : readParams total opened text = .error fault) (unspaced : Unspaced text)
    (bare : params = [] → text.head? ≠ some ']') (before : Nat) :
    (∃ inside rest, listed params ++ (List.replicate before ' ' ++ text) = inside ++ rest ∧
      ParamDue inside rest.head? ∧ fault = .expected .parameter (offsetOf total rest)) ∨
    BreaksOff (listed params ++ (List.replicate before ' ' ++ text)) ∧
      fault = .expected .parameters opened := by
  fun_induction readParams total opened text generalizing params fault before with
  | case1 text rest taken =>
      cases unread
      obtain ⟨rfl, noName⟩ := takeIdentifier_eq_nil_iff.mp taken
      have due : ParamDue (listed params ++ List.replicate before ' ') rest.head? := by
        refine .intro before named fun c first => ⟨noName c first, ?_, ?_⟩
        · rintro rfl
          exact unspaced first
        · rintro none rfl
          exact bare none first
      exact .inl ⟨_, rest, (List.append_assoc _ _ _).symm, due, rfl⟩
  | case2 text c name behind taken more spaced ih =>
      have unreadLater : readParams total opened (skipSpaces more) = .error fault := by
        simpa [bind_eq_error_iff] using unread
      obtain ⟨param, isName, _, written, _⟩ := exists_param_of_takeIdentifier taken before
      obtain ⟨count, afterComma⟩ := exists_spaces_of_skipSpaces more
      have namedAll : ∀ other ∈ params ++ [param], IsName other.name := by
        rw [List.forall_mem_append, List.forall_mem_singleton]
        exact ⟨named, isName⟩
      have front : listed params ++ (List.replicate before ' ' ++ text) =
          listed (params ++ [param]) ++ (List.replicate count ' ' ++ skipSpaces more) := by
        rw [listed_concat, ← afterComma, written, spaced]
        simp
      rw [front]
      exact ih namedAll unreadLater (unspaced_skipSpaces more) (absurd · (List.concat_ne_nil _ _)) count
  | case3 => cases unread
  | case4 text c name behind taken noComma noClose =>
      cases unread
      obtain ⟨last, isName, _, written, spaces⟩ := exists_param_of_takeIdentifier taken before
      have ends := endsName_of_takeIdentifier taken (List.cons_ne_nil _ _)
      rw [spaces] at ends
      rw [written]
      refine .inr ⟨.intro named isName ends fun c first => ?_, rfl⟩
      obtain ⟨more, stands⟩ := List.head?_eq_some_iff.mp first
      simp only [List.mem_cons, List.not_mem_nil, or_false]
      rintro (rfl | rfl | rfl)
      · exact unspaced_skipSpaces behind first
      · exact noComma more stands
      · exact noClose more stands

theorem refused_of_readList {text : List Char}
    (unread : readList total opened text = .error fault) :
    (∃ inside rest, text = inside ++ rest ∧ ParamDue inside rest.head? ∧
      fault = .expected .parameter (offsetOf total rest)) ∨
    BreaksOff text ∧ fault = .expected .parameters opened := by
  obtain ⟨count, spaces⟩ := exists_spaces_of_skipSpaces text
  unfold readList at unread
  split at unread
  next => cases unread
  next notClosed =>
    have bare : (skipSpaces text).head? ≠ some ']' := by
      intro first
      obtain ⟨after, closed⟩ := List.head?_eq_some_iff.mp first
      exact notClosed after closed
    have named : ∀ param ∈ ([] : List ListedParam), IsName param.name := List.forall_mem_nil _
    have refused :=
      refused_of_readParams named unread (unspaced_skipSpaces text) (fun _ => bare) count
    rwa [listed, List.nil_append, ← spaces] at refused

end Lists

section Keys

variable {fault : Fault} {name : String}

theorem parse_uptoColon (isName : IsName name) (text : List Char) :
    parse (String.ofList (uptoColon name ++ text)) = (do
      match ← readParameters (byteLength (uptoColon name ++ text)) text with
      | (params, []) => return ⟨name, params⟩
      | (_, rest) =>
          .error (.expected .endOfKey (offsetOf (byteLength (uptoColon name ++ text)) rest))) := by
  have key : String.ofList (uptoColon name ++ text) =
      actionKeyStart ++ name ++ String.ofList (':' :: text) := by
    simp [← String.toList_inj, uptoColon]
  have read := parse_named isName (':' :: text) (endsName_cons (by decide) text)
  rwa [← key, String.toList_ofList] at read

/-- A key whose parameters cannot be read is refused like them. -/
theorem parse_of_refusedParameters (isName : IsName name) {text : List Char}
    (unread : readParameters (byteLength (uptoColon name ++ text)) text = .error fault) :
    parse (String.ofList (uptoColon name ++ text)) = .error fault := by
  rw [parse_uptoColon isName]
  simp only [unread, error_bind]

theorem readParameters_bracket (total : Nat) (inside : List Char) :
    readParameters total ('[' :: inside) = readList total (offsetOf total ('[' :: inside)) inside :=
  rfl

theorem parse_of_stuck {expectation : Expectation} {before behind : List Char}
    (stuck : Stuck expectation before behind.head?) :
    parse (String.ofList (before ++ behind)) =
      .error (.expected expectation (byteLength before)) := by
  generalize upcoming : behind.head? = next at stuck
  cases stuck with
  | name other =>
      have taken : takeIdentifier behind = ([], behind) :=
        takeIdentifier_eq_nil_iff.mpr ⟨rfl, upcoming ▸ other⟩
      have started : Text.afterStart? actionKeyStart
          (String.ofList (actionKeyStart.toList ++ behind)) = some (String.ofList behind) := by
        rw [String.ofList_append, String.ofList_toList]
        exact Text.afterStart?_append actionKeyStart _
      unfold parse
      simp only [started, String.toList_ofList, taken, offsetOf_append]
  | @parameters name _ isName other =>
      subst upcoming
      apply parse_of_refusedParameters isName
      unfold readParameters
      split
      next => exact absurd rfl (other '[' rfl).2
      next =>
        rw [takeIdentifier_eq_nil_iff.mpr ⟨rfl, fun c first => (other c first).1⟩]
        simp only [offsetOf_append]
  | @parameter name inside _ isName due =>
      subst upcoming
      rw [List.append_assoc, List.cons_append]
      apply parse_of_refusedParameters isName
      have place := offsetOf_append (uptoColon name ++ '[' :: inside) behind
      rw [List.append_assoc, List.cons_append] at place
      rw [readParameters_bracket, readList_of_paramDue due, place]
  | @endOfKey form c named other =>
      obtain ⟨rest, rfl⟩ := List.head?_eq_some_iff.mp upcoming
      have ends : form.params.EndsBefore (c :: rest) := by
        intro d first
        cases first
        exact other
      rw [String.ofList_append, String.ofList_toList, Form.parse_text_append named ends,
        if_neg (List.cons_ne_nil c rest)]

theorem parse_of_listBreaksOff {key : String} {opened : Nat} (breaksOff : ListBreaksOff key opened) :
    parse key = .error (.expected .parameters opened) := by
  obtain ⟨name, inside, isName, written, breaksOff, rfl⟩ := breaksOff
  rw [← String.ofList_toList (s := key), written]
  apply parse_of_refusedParameters isName
  rw [readParameters_bracket, readList_of_breaksOff breaksOff, offsetOf_append]

theorem exists_stuck_of_parameters (isName : IsName name) {text : List Char}
    (refused : parse (String.ofList (uptoColon name ++ text)) = .error fault) :
    (∃ before behind expectation, uptoColon name ++ text = before ++ behind ∧
      Stuck expectation before behind.head?) ∨
    ∃ inside, text = '[' :: inside ∧ BreaksOff inside := by
  cases read : readParameters (byteLength (uptoColon name ++ text)) text with
  | error cause =>
      unfold readParameters at read
      split at read
      next inside =>
        rcases refused_of_readList read with ⟨before, rest, rfl, due, _⟩ | ⟨breaksOff, _⟩
        · exact .inl ⟨uptoColon name ++ '[' :: before, rest, _, by simp, .parameter isName due⟩
        · exact .inr ⟨inside, rfl, breaksOff⟩
      next noBracket =>
        split at read
        next taken =>
          refine .inl ⟨uptoColon name, text, _, rfl, .parameters isName fun c first => ⟨?_, ?_⟩⟩
          · exact (takeIdentifier_eq_nil_iff.mp taken).2 c first
          · rintro rfl
            obtain ⟨inside, same⟩ := List.head?_eq_some_iff.mp first
            exact noBracket inside same
        next => cases read
  | ok result =>
      obtain ⟨params, rest⟩ := result
      rw [parse_uptoColon isName, read] at refused
      cases rest with
      | nil => cases refused
      | cons c rest =>
          obtain ⟨form, _, named, written, ends, rfl⟩ := readParameters_eq_ok_iff.mp read
          have key : uptoColon name ++ text = (Form.mk name form).text.toList ++ c :: rest := by
            rw [uptoColon, List.append_assoc, List.append_assoc, List.singleton_append, written]
            simp [Form.text, actionKeyStart]
          exact .inl ⟨_, c :: rest, _, key, .endOfKey ⟨isName, named⟩ (ends c rfl)⟩

/-- A key is refused only if a reader is stuck in it or if its list breaks off. -/
theorem exists_stuck_of_parse {key : String} (starts : actionKeyStart.toList <+: key.toList)
    (refused : parse key = .error fault) :
    (∃ before behind expectation, key.toList = before ++ behind ∧
      Stuck expectation before behind.head?) ∨ ∃ opened, ListBreaksOff key opened := by
  obtain ⟨text, written⟩ := starts
  by_cases empty : (takeIdentifier text).1 = []
  · have taken : takeIdentifier text = ([], (takeIdentifier text).2) := by rw [← empty]
    exact .inl ⟨_, text, _, written.symm, .name (takeIdentifier_eq_nil_iff.mp taken).2⟩
  · obtain ⟨name, rest, isName, ends, rfl⟩ := exists_name_of_takeIdentifier empty
    have read := parse_named isName rest ends
    have key_eq : key = actionKeyStart ++ name ++ String.ofList rest := by
      simp [← String.toList_inj, ← written]
    rw [← key_eq, refused] at read
    cases rest with
    | nil => cases read
    | cons c rest =>
        by_cases colon : c = ':'
        · subst colon
          have upto : key.toList = uptoColon name ++ rest := by simp [← written, uptoColon]
          have refusedThere : parse (String.ofList (uptoColon name ++ rest)) = .error fault := by
            rw [← upto, String.ofList_toList, refused]
          rw [upto]
          rcases exists_stuck_of_parameters isName refusedThere with stuck | ⟨inside, rfl, breaksOff⟩
          · exact .inl stuck
          · exact .inr ⟨_, name, inside, isName, upto, breaksOff, rfl⟩
        · have other : ParamsForm.absent.continuedBy c = false := by
            rw [ParamsForm.continuedBy, ends c rfl, Bool.false_or]
            exact beq_eq_false_iff_ne.mpr colon
          refine .inl ⟨(Form.mk name .absent).text.toList, c :: rest, _, ?_,
            .endOfKey ⟨isName, List.forall_mem_nil _⟩ other⟩
          simp [← written, Form.text, ParamsForm.text, actionKeyStart]

end Keys

section Beginnings

theorem begins_of_form {form : Form} (named : form.Named) {text : List Char} (more : List Char)
    (written : form.text.toList = text ++ more) : Begins text := by
  refine ⟨more, form.meaning, ?_⟩
  rw [← written, String.ofList_toList]
  exact Form.parse_text named

theorem closing_concat (params : List ListedParam) (last : ListedParam) (rest : List Char) :
    closing rest (params ++ [last]) = ',' :: (listed params ++ (last.text.toList ++ ']' :: rest)) := by
  induction params with
  | nil => rfl
  | cons param params ih => simp [closing, ih, listed]

/-- What has been read of a list can be completed by a parameter and the bracket. -/
theorem exists_form_of_paramDue {name : String} (isName : IsName name) {inside : List Char}
    {next : Option Char} (due : ParamDue inside next) : ∃ form : Form, form.Named ∧
      form.text.toList = uptoColon name ++ '[' :: inside ++ ['x', ']'] := by
  obtain @⟨params, count, _, named, _⟩ := due
  obtain ⟨first, others, same⟩ :=
    List.exists_cons_of_ne_nil (List.concat_ne_nil ⟨count, "x", 0⟩ params)
  have completed := closing_concat params ⟨count, "x", 0⟩ []
  rw [same, closing, List.cons.injEq] at completed
  have isName_x : IsName "x" := by decide
  have namedAll : ∀ param ∈ first :: others, IsName param.name := by
    rw [← same, List.forall_mem_append, List.forall_mem_singleton]
    exact ⟨named, isName_x⟩
  refine ⟨⟨name, .list first others⟩, ⟨isName, List.forall_mem_map.mpr namedAll⟩, ?_⟩
  rw [Form.text, String.toList_append, ParamsForm.toList_list, completed.2]
  simp [uptoColon, actionKeyStart, toList_text_append]

theorem begins_of_stuck {expectation : Expectation} {before : List Char} {next : Option Char}
    (stuck : Stuck expectation before next) : Begins before := by
  have isName_x : IsName "x" := by decide
  cases stuck with
  | name =>
      have named : (Form.mk "x" .absent).Named := ⟨isName_x, List.forall_mem_nil _⟩
      exact begins_of_form named ['x'] rfl
  | @parameters name _ isName =>
      have named : (Form.mk name (.single "x")).Named :=
        ⟨isName, List.forall_mem_singleton.mpr isName_x⟩
      refine begins_of_form named ['x'] ?_
      simp [Form.text, ParamsForm.text, uptoColon, actionKeyStart]
  | parameter isName due =>
      obtain ⟨form, named, written⟩ := exists_form_of_paramDue isName due
      exact begins_of_form named _ written
  | endOfKey named => exact begins_of_form named [] (List.append_nil _).symm

theorem start_prefix_of_stuck {expectation : Expectation} {before : List Char} {next : Option Char}
    (stuck : Stuck expectation before next) : actionKeyStart.toList <+: before := by
  cases stuck with
  | name => exact List.prefix_rfl
  | parameters => exact List.prefix_append _ _
  | parameter => rw [uptoColon, List.append_assoc]; exact List.prefix_append _ _
  | @endOfKey form =>
      rw [Form.text, String.toList_append, String.toList_append, List.append_assoc]
      exact List.prefix_append _ _

/-- Where a reader is stuck no key goes on with the next character. -/
theorem not_begins_of_stuck {expectation : Expectation} {before : List Char} {c : Char}
    (stuck : Stuck expectation before (some c)) : ¬ Begins (before ++ [c]) := by
  intro begins
  obtain ⟨more, parsed, read⟩ := begins
  have upcoming : (c :: more).head? = some c := rfl
  rw [← upcoming] at stuck
  rw [List.append_assoc, List.singleton_append, parse_of_stuck stuck] at read
  cases read

end Beginnings

theorem bounds_of_split {key : String} {before behind : List Char}
    (split : key.toList = before ++ behind) (starts : actionKeyStart.toList <+: before) :
    String.Pos.Raw.IsValid key ⟨byteLength before⟩ ∧ 6 ≤ byteLength before ∧
      byteLength before ≤ key.utf8ByteSize := by
  obtain ⟨text, rfl⟩ := starts
  have start : byteLength actionKeyStart.toList = 6 := rfl
  rw [utf8ByteSize_eq_byteLength]
  refine ⟨isValid_byteLength split, ?_, ?_⟩
  · rw [byteLength_append, start]
    omega
  · rw [split, byteLength_append _ behind]
    omega

/-- A key is refused at the first character with which no key goes on there, or at its end.
Only a list that breaks off behind a parameter is refused at the bracket that opens it. In
all cases some key begins with the text before. -/
theorem parse_refused {key : String} {fault : Fault}
    (starts : actionKeyStart.toList <+: key.toList) (refused : parse key = .error fault) :
    ∃ expectation before behind, fault = .expected expectation (byteLength before) ∧
      key.toList = before ++ behind ∧ String.Pos.Raw.IsValid key ⟨byteLength before⟩ ∧
      6 ≤ byteLength before ∧ byteLength before ≤ key.utf8ByteSize ∧ Begins before ∧
      (∀ opened, ListBreaksOff key opened → byteLength before = opened) ∧
      ((∀ opened, ¬ ListBreaksOff key opened) →
        behind = [] ∨ ∃ c rest, behind = c :: rest ∧ ¬ Begins (before ++ [c])) := by
  have opens : ∀ opened, ListBreaksOff key opened → fault = .expected .parameters opened := by
    intro opened breaksOff
    rw [parse_of_listBreaksOff breaksOff, Except.error.injEq] at refused
    exact refused.symm
  rcases exists_stuck_of_parse starts refused with
    ⟨before, behind, expectation, split, stuck⟩ | ⟨opened, breaksOff⟩
  · obtain ⟨valid, least, within⟩ := bounds_of_split split (start_prefix_of_stuck stuck)
    have reported : fault = .expected expectation (byteLength before) := by
      have read := parse_of_stuck stuck
      rwa [← split, String.ofList_toList, refused, Except.error.injEq] at read
    refine ⟨expectation, before, behind, reported, split, valid, least, within,
      begins_of_stuck stuck, fun opened breaksOff => ?_, fun _ => ?_⟩
    · have same := reported.symm.trans (opens opened breaksOff)
      cases same
      rfl
    · cases behind with
      | nil => exact .inl rfl
      | cons c rest => exact .inr ⟨c, rest, rfl, not_begins_of_stuck stuck⟩
  · obtain ⟨name, inside, isName, written, _, place⟩ := id breaksOff
    subst place
    have due : Stuck .parameters (uptoColon name) none := .parameters isName nofun
    obtain ⟨valid, least, within⟩ := bounds_of_split written (start_prefix_of_stuck due)
    refine ⟨.parameters, uptoColon name, '[' :: inside, opens _ breaksOff, written, valid, least,
      within, begins_of_stuck due, fun other breaksOffThere => ?_,
      fun nowhere => absurd breaksOff (nowhere _)⟩
    have same := (opens _ breaksOff).symm.trans (opens other breaksOffThere)
    cases same
    rfl

/-- Behind a comma the accented letter begins no parameter. A second name in a list without
a comma before it is reported at the bracket. -/
theorem parse_refused_in_list :
    (parse "x-fir-toggleClass:[a, é]" = .error (.expected .parameter 22) ∧
      ∃ before behind, "x-fir-toggleClass:[a, é]".toList = before ++ behind ∧
        byteLength before = 22 ∧ Begins before ∧
        (behind = [] ∨ ∃ c rest, behind = c :: rest ∧ ¬ Begins (before ++ [c]))) ∧
    (ListBreaksOff "x-fir-dispatch:[a b]" 15 ∧
      ∃ before behind, "x-fir-dispatch:[a b]".toList = before ++ behind ∧
        byteLength before = 15 ∧ Begins before) := by
  have noParameter : parse "x-fir-toggleClass:[a, é]" = .error (.expected .parameter 22) := by
    decide +kernel
  have breaksOff : ListBreaksOff "x-fir-dispatch:[a b]" 15 := by
    have inside : BreaksOff "a b]".toList := by
      refine @BreaksOff.intro [] ⟨0, "a", 1⟩ "b]".toList (List.forall_mem_nil _) (by decide) ?_ ?_
      all_goals
        intro c first
        cases first
        decide
    exact ⟨"dispatch", _, by decide, rfl, inside, rfl⟩
  refine ⟨⟨noParameter, ?_⟩, breaksOff, ?_⟩
  · obtain ⟨_, before, behind, reported, split, _, _, _, begins, _, goesOn⟩ :=
      parse_refused (by decide) noParameter
    injection reported with _ place
    refine ⟨before, behind, split, place.symm, begins, goesOn fun opened opens => ?_⟩
    rw [parse_of_listBreaksOff opens] at noParameter
    cases noParameter
  · obtain ⟨_, before, behind, _, split, _, _, _, begins, opens, _⟩ :=
      parse_refused (by decide) (parse_of_listBreaksOff breaksOff)
    exact ⟨before, behind, split, opens 15 breaksOff, begins⟩

end ActionKey

end EventBindings
