import EventBindings.Proofs.ActionKey.Forms
import EventBindings.Proofs.Token.Tiling

namespace EventBindings

open Text

namespace ActionKey

/-!
A key is read exactly if it has a written form, and what is read is what the form
means.
-/

section Reading

variable {total opened : Nat}

/-- What stands next behind a parameter and its spaces decides how to go on. -/
theorem readParams_name {name : String} (isName : IsName name) {behind : List Char}
    (ends : EndsName behind) : readParams total opened (name.toList ++ behind) =
      match skipSpaces behind with
      | ',' :: more => do
          let (params, after) ← readParams total opened (skipSpaces more)
          return (name :: params, after)
      | ']' :: after => .ok ([name], after)
      | _ => .error (.expected .parameters opened) := by
  have taken := takeIdentifier_append_of_isIdentifier isName ends
  obtain ⟨c, part, letters⟩ := List.exists_cons_of_ne_nil isName.ne_nil
  have whole : String.ofList (c :: part) = name := by rw [← letters, String.ofList_toList]
  rw [readParams]
  split
  next empty =>
    rw [taken, letters] at empty
    cases empty
  next found =>
    rw [taken, letters] at found
    cases found
    rw [whole]
    split
    next more comma =>
      rw [comma]
      rfl
    next after close =>
      rw [close]
      rfl
    next noComma noClose =>
      split
      next more comma => exact (noComma more comma).elim
      next after close => exact (noClose after close).elim
      next => rfl

/-- A parameter is read with the spaces around it. -/
theorem readParams_param {param : ListedParam} (isName : IsName param.name) (rest : List Char)
    (others : List ListedParam) :
    readParams total opened (skipSpaces (param.text.toList ++ closing rest others)) =
      match closing rest others with
      | ',' :: more => do
          let (params, after) ← readParams total opened (skipSpaces more)
          return (param.name :: params, after)
      | ']' :: after => .ok ([param.name], after)
      | _ => .error (.expected .parameters opened) := by
  rw [toList_text_append, skipSpaces_append (unspaced_name isName _),
    readParams_name isName (endsName_closing rest others param.after),
    skipSpaces_append (unspaced_closing rest others)]

/-- A list of parameters is read, whatever spaces stand around them. -/
theorem readParams_listed {first : ListedParam} {others : List ListedParam}
    (named : ∀ param ∈ first :: others, IsName param.name) (rest : List Char) :
    readParams total opened (skipSpaces (first.text.toList ++ closing rest others)) =
      .ok ((first :: others).map ListedParam.name, rest) := by
  induction others generalizing first with
  | nil =>
      rw [readParams_param (named first List.mem_cons_self)]
      rfl
  | cons second others ih =>
      rw [List.forall_mem_cons] at named
      rw [readParams_param named.1, closing]
      simp only [ih named.2]
      rfl

theorem exists_param_of_takeIdentifier {c : Char} {name text behind : List Char}
    (taken : takeIdentifier text = (c :: name, behind)) (before : Nat) :
    ∃ param : ListedParam, IsName param.name ∧ param.name = String.ofList (c :: name) ∧
      List.replicate before ' ' ++ text = param.text.toList ++ skipSpaces behind ∧
      behind = List.replicate param.after ' ' ++ skipSpaces behind := by
  obtain ⟨count, spaces⟩ := exists_spaces_of_skipSpaces behind
  have whole := takeIdentifier_append text
  refine ⟨⟨before, String.ofList (c :: name), count⟩,
    isName_of_takeIdentifier taken (List.cons_ne_nil _ _), rfl, ?_, spaces⟩
  rw [toList_text_append, ← spaces, String.toList_ofList, ← whole, taken]

/-- What is read as parameters is a list of them. The spaces before the text are
those before its first parameter. -/
theorem exists_listed_of_readParams {text rest : List Char} {params : List String}
    (read : readParams total opened text = .ok (params, rest)) (before : Nat) :
    ∃ first others, (∀ param ∈ first :: others, IsName param.name) ∧
      List.replicate before ' ' ++ text = first.text.toList ++ closing rest others ∧
      (first :: others).map ListedParam.name = params := by
  fun_induction readParams total opened text generalizing params rest before with
  | case1 => cases read
  | case2 text c name behind taken more spaced ih =>
      obtain ⟨⟨later, after⟩, readLater, read⟩ := bind_eq_ok_iff.mp read
      cases read
      obtain ⟨first, isName, sameName, written, _⟩ := exists_param_of_takeIdentifier taken before
      obtain ⟨count, afterComma⟩ := exists_spaces_of_skipSpaces more
      obtain ⟨second, others, named, othersWritten, rfl⟩ := ih readLater count
      refine ⟨first, second :: others, List.forall_mem_cons.mpr ⟨isName, named⟩, ?_, ?_⟩
      · rw [written, spaced, closing, ← othersWritten, ← afterComma]
      · rw [List.map_cons, sameName]
  | case3 text c name behind taken after spaced =>
      cases read
      obtain ⟨first, isName, sameName, written, _⟩ := exists_param_of_takeIdentifier taken before
      refine ⟨first, [], List.forall_mem_singleton.mpr isName, ?_, ?_⟩
      · rw [written, spaced, closing]
      · rw [List.map_singleton, sameName]
  | case4 => cases read

theorem readList_listed {first : ListedParam} {others : List ListedParam}
    (named : ∀ param ∈ first :: others, IsName param.name) (rest : List Char) :
    readList total opened (first.text.toList ++ closing rest others) =
      .ok ((first :: others).map ListedParam.name, rest) := by
  have isName := named first List.mem_cons_self
  have read : readParams total opened (skipSpaces (first.text.toList ++ closing rest others)) =
      .ok ((first :: others).map ListedParam.name, rest) := readParams_listed named rest
  rw [readList]
  split
  next after closed =>
    rw [toList_text_append, skipSpaces_append (unspaced_name isName _)] at closed
    exact absurd closed (name_append_ne_cons isName (by decide))
  next => exact read

theorem readList_eq_ok_iff {text rest : List Char} {params : List String} :
    readList total opened text = .ok (params, rest) ↔
      (∃ count, text = List.replicate count ' ' ++ ']' :: rest ∧ params = []) ∨
        ∃ first others, (∀ param ∈ first :: others, IsName param.name) ∧
          text = first.text.toList ++ closing rest others ∧
          (first :: others).map ListedParam.name = params := by
  obtain ⟨count, spaces⟩ := exists_spaces_of_skipSpaces text
  constructor
  case mp =>
    intro read
    unfold readList at read
    split at read
    next after closed =>
      cases read
      rw [closed] at spaces
      exact .inl ⟨count, spaces, rfl⟩
    next =>
      rw [spaces]
      exact .inr (exists_listed_of_readParams read count)
  case mpr =>
    intro written
    rcases written with ⟨count, rfl, rfl⟩ | ⟨first, others, named, rfl, rfl⟩
    · have skipped : skipSpaces (List.replicate count ' ' ++ ']' :: rest) = ']' :: rest :=
        skipSpaces_append (by simp [Unspaced]) count
      rw [readList, skipped]
      rfl
    · exact readList_listed named rest

end Reading

section Forms

variable {total : Nat}

theorem readParameters_single {param : String} (isName : IsName param) {rest : List Char}
    (ends : EndsName rest) : readParameters total (param.toList ++ rest) = .ok ([param], rest) := by
  have taken := takeIdentifier_append_of_isIdentifier isName ends
  obtain ⟨c, part, letters⟩ := List.exists_cons_of_ne_nil isName.ne_nil
  have whole : String.ofList (c :: part) = param := by rw [← letters, String.ofList_toList]
  unfold readParameters
  split
  next bracket => exact absurd bracket (name_append_ne_cons isName (by decide))
  next =>
    rw [taken, letters]
    simp only [whole]

/-- What stands behind the colon is read as a form that it begins with and that does not
go on. -/
theorem readParameters_eq_ok_iff {text rest : List Char} {params : List String} :
    readParameters total text = .ok (params, rest) ↔
      ∃ form : ParamsForm, form ≠ .absent ∧ (∀ param ∈ form.params, IsName param) ∧
        ':' :: text = form.text.toList ++ rest ∧ form.EndsBefore rest ∧ form.params = params := by
  constructor
  case mp =>
    intro read
    have named := named_of_readParameters read
    unfold readParameters at read
    split at read
    next inside =>
      rcases readList_eq_ok_iff.mp read with ⟨count, rfl, rfl⟩ | ⟨first, others, _, rfl, rfl⟩
      · exact ⟨.emptyList count, nofun, named, by simp [ParamsForm.toList_emptyList], fun _ _ => rfl,
          rfl⟩
      · exact ⟨.list first others, nofun, named, by rw [ParamsForm.toList_list_append],
          fun _ _ => rfl, rfl⟩
    next =>
      split at read
      next => cases read
      next name rest nonempty taken =>
        cases read
        have whole := takeIdentifier_append text
        rw [taken] at whole
        exact ⟨.single (String.ofList name), nofun, named, by simp [ParamsForm.text, ← whole],
          endsName_of_takeIdentifier taken nonempty, rfl⟩
  case mpr =>
    intro given
    obtain ⟨form, present, named, written, ends, rfl⟩ := given
    cases form with
    | absent => exact absurd rfl present
    | single param =>
        have same : text = param.toList ++ rest := by simpa [ParamsForm.text] using written
        rw [same]
        exact readParameters_single (named param (by simp [ParamsForm.params])) ends
    | emptyList count =>
        rw [ParamsForm.toList_emptyList] at written
        cases written
        exact readList_eq_ok_iff.mpr (.inl ⟨count, by simp, rfl⟩)
    | list first others =>
        rw [ParamsForm.toList_list_append] at written
        cases written
        rw [ParamsForm.params, List.forall_mem_map] at named
        exact readList_listed named rest

theorem offsetOf_append (before rest : List Char) :
    offsetOf (byteLength (before ++ rest)) rest = byteLength before := by
  simp [offsetOf]

/-- Behind its name a key ends, or it has parameters. -/
theorem parse_named {name : String} (isName : IsName name) (text : List Char) : EndsName text →
    parse (actionKeyStart ++ name ++ String.ofList text) =
      let total := byteLength (actionKeyStart ++ name ++ String.ofList text).toList
      match text with
      | [] => .ok ⟨name, []⟩
      | ':' :: behind => do
          match ← readParameters total behind with
          | (params, []) => return ⟨name, params⟩
          | (_, rest) => .error (.expected .endOfKey (offsetOf total rest))
      | rest => .error (.expected .endOfKey (offsetOf total rest)) := by
  intro ends
  have started : Text.afterStart? actionKeyStart (actionKeyStart ++ name ++ String.ofList text) =
      some (name ++ String.ofList text) := by
    rw [String.append_assoc]
    exact Text.afterStart?_append actionKeyStart _
  have taken : takeIdentifier (name ++ String.ofList text).toList = (name.toList, text) := by
    rw [String.toList_append, String.toList_ofList]
    exact takeIdentifier_append_of_isIdentifier isName ends
  obtain ⟨c, part, letters⟩ := List.exists_cons_of_ne_nil isName.ne_nil
  have whole : String.ofList (c :: part) = name := by rw [← letters, String.ofList_toList]
  rw [letters] at taken
  unfold parse
  simp only [started, taken]
  split
  next empty => cases empty
  next parts =>
    cases parts
    rw [whole]
  next parts =>
    cases parts
    rw [whole]
    rfl
  next nonempty noColon parts =>
    cases parts
    split
    next => exact (nonempty rfl).elim
    next behind => exact (noColon behind rfl).elim
    next => rfl

namespace Form

theorem afterStart?_text (form : Form) :
    Text.afterStart? actionKeyStart form.text = some (form.name ++ form.params.text) := by
  rw [text, String.append_assoc]
  exact Text.afterStart?_append actionKeyStart _

theorem takeIdentifier_text {form : Form} (named : form.Named) :
    takeIdentifier (form.name ++ form.params.text).toList =
      (form.name.toList, form.params.text.toList) := by
  have ends := ParamsForm.endsName_text_append form.params.endsBefore_nil
  rw [List.append_nil] at ends
  rw [String.toList_append]
  exact takeIdentifier_append_of_isIdentifier named.name ends

/-- A text that begins with a key in one of the forms is read as far as the form goes,
and there it has to end. -/
theorem parse_text_append {form : Form} (named : form.Named) {rest : List Char}
    (ends : form.params.EndsBefore rest) : parse (form.text ++ String.ofList rest) =
      if rest = [] then .ok form.meaning
      else .error (.expected .endOfKey (byteLength form.text.toList)) := by
  have key : form.text ++ String.ofList rest =
      actionKeyStart ++ form.name ++ String.ofList (form.params.text.toList ++ rest) := by
    rw [String.ofList_append, String.ofList_toList, ← String.append_assoc]
    rfl
  have place : offsetOf (byteLength (form.text ++ String.ofList rest).toList) rest =
      byteLength form.text.toList := by
    rw [String.toList_append, String.toList_ofList, offsetOf_append]
  rw [key] at place ⊢
  rw [parse_named named.name _ (ParamsForm.endsName_text_append ends)]
  dsimp only
  rcases form.params.absent_or_colon with absent | ⟨behind, colon⟩
  · rw [absent] at ends
    have bare : form.params.text.toList ++ rest = rest := by rw [absent]; rfl
    rw [bare] at place ⊢
    cases rest with
    | nil => simp [meaning, absent, ParamsForm.params]
    | cons c rest =>
        have noColon : c ≠ ':' := by
          rintro rfl
          exact absurd (ends ':' rfl) (by decide)
        split
        next empty => cases empty
        next same => exact absurd (List.cons.inj same).1 noColon
        next => rw [place, if_neg (List.cons_ne_nil c rest)]
  · have read : ∀ total, readParameters total (behind ++ rest) = .ok (form.params.params, rest) := by
      intro total
      refine readParameters_eq_ok_iff.mpr ⟨form.params, ?_, named.params, ?_, ends, rfl⟩
      · intro absent
        rw [absent] at colon
        cases colon
      · rw [colon, List.cons_append]
    simp only [colon, List.cons_append, read, ok_bind] at place ⊢
    cases rest with
    | nil => rfl
    | cons c rest => rw [if_neg (List.cons_ne_nil c rest), ← place]

/-- A key in one of the forms is read as what the form means. -/
theorem parse_text {form : Form} (named : form.Named) : parse form.text = .ok form.meaning := by
  have read := parse_text_append named form.params.endsBefore_nil
  rwa [String.ofList_nil, String.append_empty, if_pos rfl] at read

/-- A key that is read has one of the forms. -/
theorem exists_form_of_parse {key : String} {parsed : ActionKey} (read : parse key = .ok parsed) :
    ∃ form : Form, form.Named ∧ form.text = key ∧ form.meaning = parsed := by
  obtain ⟨text, name, rest, started, taken, _, sameName, behind⟩ := parts_of_parse read
  have named := named_of_parse read
  have whole := takeIdentifier_append text.toList
  rw [taken] at whole
  obtain ⟨params, written, meaning⟩ : ∃ params : ParamsForm,
      params.text.toList = rest ∧ params.params = parsed.params := by
    rcases behind with ⟨rfl, empty⟩ | ⟨behind, rfl, readParams⟩
    · exact ⟨.absent, rfl, empty.symm⟩
    · obtain ⟨params, _, _, colon, _, meaning⟩ := readParameters_eq_ok_iff.mp readParams
      rw [List.append_nil] at colon
      exact ⟨params, colon.symm, meaning⟩
  refine ⟨⟨parsed.name, params⟩, ⟨isName_of_parse read, by rwa [meaning]⟩, ?_, ?_⟩
  · rw [Text.afterStart?_eq_some_iff.mp started, Form.text, String.append_assoc, actionKeyStart,
      sameName, ← String.toList_inj]
    simp [written, ← whole]
  · rw [Form.meaning, meaning]

end Form

namespace Form

/-- No key is written in two forms. -/
theorem text_inj {form other : Form} (named : form.Named) (otherNamed : other.Named)
    (same : form.text = other.text) : form = other := by
  have behind := afterStart?_text form
  rw [same, afterStart?_text, Option.some.injEq] at behind
  have taken := takeIdentifier_text named
  rw [← behind, takeIdentifier_text otherNamed, Prod.mk.injEq, String.toList_inj,
    String.toList_inj] at taken
  have meaning : form.meaning = other.meaning := by
    have read := parse_text named
    rw [same, parse_text otherNamed, Except.ok.injEq] at read
    exact read.symm
  have params : form.params = other.params :=
    ParamsForm.eq_of_text_eq named.params (congrArg ActionKey.params meaning) taken.2.symm
  have name : form.name = other.name := congrArg ActionKey.name meaning
  cases form
  cases other
  simp_all

end Form

end Forms

/-- A key is read exactly if it has a written form, and what is read is what the
form means. No key has two forms. An attribute is given the parameters that its
key lists: none is left out, merged, moved or changed. -/
theorem parse_forms (key : String) :
    (∀ parsed, parse key = .ok parsed ↔
      ∃ form : Form, form.Named ∧ form.text = key ∧ form.meaning = parsed) ∧
    (∀ form other : Form, form.Named → other.Named → form.text = key → other.text = key →
      form = other) ∧
    ∀ parsed value, parse key = .ok parsed →
      ∃ attr, ActionAttribute.parse key value = .ok attr ∧ attr.params = parsed.params ∧
        attr.givenParams = parsed.params := by
  refine ⟨fun parsed => ⟨Form.exists_form_of_parse, fun written => ?read⟩,
    fun form other named otherNamed written otherWritten => ?unique,
    fun parsed value read => ?given⟩
  case read =>
    obtain ⟨form, named, rfl, rfl⟩ := written
    exact Form.parse_text named
  case unique => exact Form.text_inj named otherNamed (written.trans otherWritten.symm)
  case given =>
    refine ⟨⟨key, parsed.name, parsed.params, value⟩,
      ActionAttribute.parse_eq_ok_iff.mpr ⟨parsed, read, rfl⟩, rfl, ?_⟩
    exact ActionAttribute.givenParams_of_named (named_of_parse read)

example :
    let form : Form := ⟨"toggleClass", .list ⟨1, "a", 1⟩ [⟨2, "b", 0⟩, ⟨0, "a", 3⟩]⟩
    form.text = "x-fir-toggleClass:[ a ,  b,a   ]" ∧
      parse form.text = .ok ⟨"toggleClass", ["a", "b", "a"]⟩ := by
  decide +kernel

end ActionKey

end EventBindings
