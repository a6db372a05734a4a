import EventBindings.Proofs.ActionKey.Reading
import EventBindings.Proofs.ActionKey.Rules

namespace EventBindings

open Text

namespace ActionKey

/-!
Reading by rules. What the reader of keys gives is what a run of their rules gives: the same
name and parameters, or the same report. As long as nothing is missing in a list no rule is
noted, so a list that breaks off is noted where it begins, next to the parameter that could
stand in its place.
-/

namespace Pattern

variable {total : Nat}

section Lists

variable {opened : Nat} {text : List Char}

/-- How the rules end behind the parameters of a list, and what reading the list gives. -/
inductive ListEnds (total opened : Nat) (parts : List Part) :
    List Char → Notes → Except Fault (List String × List Char) → Prop
  | closed {rest : List Char} (later : opened < offsetOf total rest) :
      ListEnds total opened parts (']' :: rest) {} (.ok (parts.filterMap Part.param?, rest))
  | paramDue {rest place : List Char} (later : opened < offsetOf total place) :
      ListEnds total opened parts (',' :: rest) ⟨offsetOf total place, [.param]⟩
        (.error (.expected .parameter (offsetOf total place)))
  | brokenOff {rest : List Char} (other : rest.head? ≠ some ']') :
      ListEnds total opened parts rest {} (.error (.expected .parameters opened))

/-- What the rules do with parameters, and what reading them gives. -/
inductive ParamsAgree (total opened : Nat) (text : List Char) :
    Except Fault (List String × List Char) → Prop
  | noParam (taken : takeIdentifier text = ([], text)) :
      ParamsAgree total opened text (.error (.expected .parameter (offsetOf total text)))
  | params {c : Char} {name behind rest : List Char} {parts : List Part} {notes : Notes}
      {result : Except Fault (List String × List Char)}
      (taken : takeIdentifier text = (c :: name, behind))
      (more : run total moreParams (skipSpaces behind) {} = .matched parts rest notes)
      (ends : ListEnds total opened (⟨.param, c :: name, []⟩ :: parts) rest notes result) :
      ParamsAgree total opened text result

theorem ListEnds.cons {c : Char} {name rest : List Char} {parts : List Part} {notes : Notes}
    {result : Except Fault (List String × List Char)}
    (ends : ListEnds total opened parts rest notes result) :
    ListEnds total opened (⟨.param, c :: name, []⟩ :: parts) rest notes (do
      let (params, after) ← result
      return (String.ofList (c :: name) :: params, after)) := by
  cases ends with
  | closed later => exact .closed later
  | paramDue later => exact .paramDue later
  | brokenOff other => exact .brokenOff other

theorem run_moreParams_of_ne (other : text.head? ≠ some ',') (notes : Notes) :
    run total moreParams text notes = .matched [] text notes :=
  run_repeated_of_failed (run_followed_of_failed (run_text_of_ne other notes))

theorem run_comma (text : List Char) (notes : Notes) :
    run total (.followed (.text [',']) (.followed spaces (.followed param spaces))) (',' :: text)
      notes = run total (.followed param spaces) (skipSpaces text) notes := by
  rw [run_followed (run_text_cons ',' text notes), run_followed (run_spaces text notes),
    Outcome.prepend_nil, Outcome.prepend_nil]

theorem run_moreParams_of_none {rest : List Char}
    (taken : takeIdentifier (skipSpaces text) = ([], rest)) (notes : Notes) :
    run total moreParams (',' :: text) notes = .matched [] (',' :: text)
      (notes.add notes .param (offsetOf total (skipSpaces text))) := by
  apply run_repeated_of_failed
  rw [run_comma, run_param_spaces_of_none taken]

theorem run_moreParams {c : Char} {name rest : List Char}
    (taken : takeIdentifier (skipSpaces text) = (c :: name, rest)) (notes : Notes) :
    run total moreParams (',' :: text) notes =
      (run total moreParams (skipSpaces rest) notes).prepend [⟨.param, c :: name, []⟩] := by
  have within : skipSpaces rest <:+ text :=
    ((skipSpaces_suffix rest).trans (takeIdentifier_suffix taken)).trans (skipSpaces_suffix text)
  have ran : run total (.followed (.text [',']) (.followed spaces (.followed param spaces)))
      (',' :: text) notes = .matched [⟨.param, c :: name, []⟩] (skipSpaces rest) notes := by
    rw [run_comma, run_param_spaces taken]
  exact run_repeated ran (Nat.lt_succ_of_le within.length_le)

/-- The rules read parameters as the reader does. As long as all parameters are there, no
rule is noted. -/
theorem paramsAgree_readParams (later : opened < offsetOf total text) :
    ParamsAgree total opened text (readParams total opened text) := by
  fun_induction readParams total opened text with
  | case1 text rest taken =>
      obtain rfl := rest_of_takeIdentifier taken
      exact .noParam taken
  | case2 text c name behind taken more spaced ih =>
      have within : skipSpaces more <:+ text :=
        (skipSpaces_suffix more).trans (suffix_of_spaced taken spaced)
      have stillLater : opened < offsetOf total (skipSpaces more) :=
        Nat.lt_of_lt_of_le later (offsetOf_le_of_suffix within)
      have agree := ih stillLater
      generalize readParams total opened (skipSpaces more) = result at agree
      cases agree with
      | noParam none =>
          have earlier : (Notes.mk 0 []).offset < offsetOf total (skipSpaces more) :=
            Nat.zero_lt_of_lt stillLater
          have stops : run total moreParams (skipSpaces behind) {} =
              .matched [] (',' :: more) ⟨offsetOf total (skipSpaces more), [.param]⟩ := by
            rw [spaced, run_moreParams_of_none none, Notes.add_of_gt earlier]
          exact .params taken stops (.paramDue stillLater)
      | params takenNext moreNext ends =>
          refine .params taken ?_ ends.cons
          rw [spaced, run_moreParams takenNext, moreNext]
          rfl
  | case3 text c name behind taken after spaced =>
      have stops : run total moreParams (skipSpaces behind) {} = .matched [] (']' :: after) {} := by
        rw [spaced, run_moreParams_of_ne]
        simp
      have stillLater : opened < offsetOf total after :=
        Nat.lt_of_lt_of_le later (offsetOf_le_of_suffix (suffix_of_spaced taken spaced))
      exact .params taken stops (.closed stillLater)
  | case4 text c name behind taken noComma noClose =>
      have stops : run total moreParams (skipSpaces behind) {} =
          .matched [] (skipSpaces behind) {} :=
        run_moreParams_of_ne (head?_ne_of_forall noComma) {}
      exact .params taken stops (.brokenOff (head?_ne_of_forall noClose))

theorem run_closedParams_of_none {rest : List Char} (taken : takeIdentifier text = ([], rest))
    (notes : Notes) : run total closedParams text notes =
      run total (.text [']']) text (notes.add notes .param (offsetOf total text)) := by
  have noneRead : run total (.followed (.followed param spaces) moreParams) text notes =
      .failed (notes.add notes .param (offsetOf total text)) :=
    run_followed_of_failed (run_param_spaces_of_none taken notes)
  rw [closedParams, run_followed (run_optional_of_failed noneRead), Outcome.prepend_nil]

theorem run_closedParams {c : Char} {name behind rest : List Char} {parts : List Part}
    {notes later : Notes} (taken : takeIdentifier text = (c :: name, behind))
    (more : run total moreParams (skipSpaces behind) notes = .matched parts rest later) :
    run total closedParams text notes =
      (run total (.text [']']) rest later).prepend (⟨.param, c :: name, []⟩ :: parts) := by
  have all : run total (.followed (.followed param spaces) moreParams) text notes =
      .matched (⟨.param, c :: name, []⟩ :: parts) rest later := by
    rw [run_followed (run_param_spaces taken notes), more]
    rfl
  rw [closedParams, run_followed (run_optional all)]

theorem run_bracket (inside : List Char) (notes : Notes) :
    run total (.followed (.text ['[']) (.followed spaces closedParams)) ('[' :: inside) notes =
      run total closedParams (skipSpaces inside) notes := by
  rw [run_followed (run_text_cons '[' inside notes), run_followed (run_spaces inside notes),
    Outcome.prepend_nil, Outcome.prepend_nil]

end Lists

section Parameters

variable {text rest : List Char} {notes : Notes}

/-- What the rules do behind the colon, and what reading the parameters gives. -/
inductive Agrees (total : Nat) (text : List Char) :
    Outcome → Except Fault (List String × List Char) → Prop
  | read {part : Part} {rest : List Char} {notes : Notes}
      (unnamed : part.name? = none) (earlier : notes.offset < offsetOf total rest) :
      Agrees total text (.matched [part] rest notes) (.ok (part.params, rest))
  | refused {expectation : Expectation} {notes : Notes} (listed : notes.listed = expectation.rules)
      (later : offsetOf total text ≤ notes.offset) :
      Agrees total text (.failed notes) (.error (.expected expectation notes.offset))

/-- A list that is refused behind its bracket is reported there. -/
theorem agrees_of_lt (taken : takeIdentifier text = ([], rest))
    (unread : run total list text {} = .failed notes) (later : offsetOf total text < notes.offset)
    {expectation : Expectation} (listed : notes.listed = expectation.rules) :
    Agrees total text (run total (.either list param) text {})
      (.error (.expected expectation notes.offset)) := by
  rw [run_either_of_failed unread, param, run_rule_identifier_of_none taken,
    Notes.add_of_lt later]
  exact .refused listed (Nat.le_of_lt later)

/-- A list that is refused as a whole is reported with the parameter that could stand in its
place. -/
theorem agrees_of_eq (taken : takeIdentifier text = ([], rest))
    (unread : run total list text {} = .failed ⟨offsetOf total text, [.list]⟩) :
    Agrees total text (run total (.either list param) text {})
      (.error (.expected .parameters (offsetOf total text))) := by
  rw [run_either_of_failed unread, param, run_rule_identifier_of_none taken, Notes.add_self]
  have listed : (Notes.mk (offsetOf total text) [.list, .param]).listed =
      Expectation.parameters.rules := rfl
  exact .refused listed (Nat.le_refl _)

theorem agrees_of_closed {inside : List Char} {parts : List Part}
    (ran : run total closedParams (skipSpaces inside) {} = .matched parts rest notes)
    (earlier : notes.offset < offsetOf total rest) :
    Agrees total ('[' :: inside) (run total (.either list param) ('[' :: inside) {})
      (.ok (parts.filterMap Part.param?, rest)) := by
  rw [← run_bracket] at ran
  have read : run total list ('[' :: inside) {} = .matched [⟨.list, _, parts⟩] rest notes :=
    run_rule ran
  rw [run_either read]
  exact .read rfl earlier

theorem run_list_of_failed {inside : List Char}
    (failed : run total closedParams (skipSpaces inside) {} = .failed notes) :
    run total list ('[' :: inside) {} =
      .failed (Notes.add {} notes .list (offsetOf total ('[' :: inside))) := by
  rw [← run_bracket] at failed
  exact run_rule_of_failed failed

theorem agrees_of_unclosed {inside : List Char}
    (failed : run total closedParams (skipSpaces inside) {} = .failed notes)
    (later : offsetOf total ('[' :: inside) < notes.offset)
    {expectation : Expectation} (listed : notes.listed = expectation.rules) :
    Agrees total ('[' :: inside) (run total (.either list param) ('[' :: inside) {})
      (.error (.expected expectation notes.offset)) := by
  have unread := run_list_of_failed failed
  rw [Notes.add_of_lt later] at unread
  exact agrees_of_lt rfl unread later listed

theorem agrees_readList {inside : List Char} (positive : 0 < offsetOf total ('[' :: inside)) :
    Agrees total ('[' :: inside) (run total (.either list param) ('[' :: inside) {})
      (readList total (offsetOf total ('[' :: inside)) inside) := by
  have later : offsetOf total ('[' :: inside) < offsetOf total (skipSpaces inside) :=
    Nat.lt_of_lt_of_le (offsetOf_cons_lt positive)
      (offsetOf_le_of_suffix (skipSpaces_suffix inside))
  have noted : Notes.add {} {} .param (offsetOf total (skipSpaces inside)) =
      ⟨offsetOf total (skipSpaces inside), [.param]⟩ :=
    Notes.add_of_gt (Nat.zero_lt_of_lt later)
  unfold readList
  split
  next after closed =>
    have none : takeIdentifier (']' :: after) = ([], ']' :: after) := rfl
    rw [closed] at noted later
    have ran : run total closedParams (skipSpaces inside) {} =
        .matched [] after ⟨offsetOf total (']' :: after), [.param]⟩ := by
      rw [closed, run_closedParams_of_none none, noted, run_text_cons]
    exact agrees_of_closed ran (offsetOf_cons_lt (Nat.zero_lt_of_lt later))
  next notClosed =>
    have bare := head?_ne_of_forall notClosed
    have agree := paramsAgree_readParams later
    generalize readParams total (offsetOf total ('[' :: inside)) (skipSpaces inside) = result
      at agree
    cases agree with
    | noParam taken =>
        have failed : run total closedParams (skipSpaces inside) {} =
            .failed ⟨offsetOf total (skipSpaces inside), [.param]⟩ := by
          rw [run_closedParams_of_none taken, noted, run_text_of_ne bare]
        exact agrees_of_unclosed failed later (Notes.listed_rules .parameter _)
    | params taken more ends =>
        have ran := run_closedParams taken more
        cases ends with
        | closed laterRest =>
            rw [run_text_cons, Outcome.prepend_matched, List.append_nil] at ran
            exact agrees_of_closed ran (Nat.zero_lt_of_lt laterRest)
        | paramDue laterPlace =>
            rw [run_text_of_ne (by simp)] at ran
            exact agrees_of_unclosed ran laterPlace (Notes.listed_rules .parameter _)
        | brokenOff other =>
            rw [run_text_of_ne other] at ran
            have unread := run_list_of_failed ran
            rw [Notes.add_of_gt positive] at unread
            exact agrees_of_eq rfl unread

theorem agrees_readParameters (positive : 0 < offsetOf total text) :
    Agrees total text (run total (.either list param) text {}) (readParameters total text) := by
  unfold readParameters
  split
  next inside => exact agrees_readList positive
  next notBracket =>
    have other := head?_ne_of_forall notBracket
    have failed : run total (.followed (.text ['[']) (.followed spaces closedParams)) text {} =
        .failed {} := run_followed_of_failed (run_text_of_ne other {})
    have unread : run total list text {} = .failed ⟨offsetOf total text, [.list]⟩ := by
      rw [list, run_rule_of_failed failed, Notes.add_of_gt positive]
    split
    next rest taken =>
      obtain rfl := rest_of_takeIdentifier taken
      exact agrees_of_eq taken unread
    next name rest nonempty taken =>
      obtain ⟨c, letters, rfl⟩ := List.exists_cons_of_ne_nil nonempty
      have whole : c :: (letters ++ rest) = text := by
        simpa [taken] using takeIdentifier_append text
      rw [run_either_of_failed unread, param, run_rule_identifier taken]
      rw [← whole] at positive ⊢
      exact .read rfl (Nat.lt_of_lt_of_le (offsetOf_cons_lt positive)
        (offsetOf_le_of_suffix (List.suffix_append letters rest)))

end Parameters

section Keys

variable {rest : List Char} {notes : Notes}

theorem run_colon (text : List Char) (notes : Notes) : run total params (':' :: text) notes =
    run total (.either list param) text notes := by
  rw [params, run_followed (run_text_cons ':' text notes), Outcome.prepend_nil]

theorem run_end (notes : Notes) :
    run total (.rule .endOfKey .ending) [] notes = .matched [⟨.endOfKey, [], []⟩] [] notes := by
  have last : run total .ending [] notes = .matched [] [] notes := by rw [run, if_pos rfl]
  exact run_rule last

theorem run_end_of_ne_nil (nonempty : rest ≠ []) (notes : Notes) :
    run total (.rule .endOfKey .ending) rest notes =
      .failed (notes.add notes .endOfKey (offsetOf total rest)) := by
  have more : run total .ending rest notes = .failed notes := by rw [run, if_neg nonempty]
  exact run_rule_of_failed more

/-- Without a colon the name ends the key. -/
theorem run_ended_of_ne (other : rest.head? ≠ some ':') (notes : Notes) :
    run total ended rest notes = run total (.rule .endOfKey .ending) rest notes := by
  have absent : run total params rest notes = .failed notes :=
    run_followed_of_failed (run_text_of_ne other notes)
  rw [ended, run_followed (run_optional_of_failed absent), Outcome.prepend_nil]

/-- What the rules do behind the beginning of a key, and what reading the key gives. -/
inductive KeyAgrees : Outcome → Except Fault ActionKey → Prop
  | read {parts : List Part} {rest : List Char} {notes : Notes} :
      KeyAgrees (.matched parts rest notes)
        (.ok ⟨(parts.filterMap Part.name?).getLastD "", parts.flatMap Part.params⟩)
  | refused {expectation : Expectation} {notes : Notes} (listed : notes.listed = expectation.rules)
      (later : 0 < notes.offset) :
      KeyAgrees (.failed notes) (.error (.expected expectation notes.offset))

theorem keyAgrees_end {parts : List Part} (nonempty : rest ≠ [])
    (earlier : notes.offset < offsetOf total rest) :
    KeyAgrees ((run total (.rule .endOfKey .ending) rest notes).prepend parts)
      (.error (.expected .endOfKey (offsetOf total rest))) := by
  rw [run_end_of_ne_nil nonempty, Notes.add_of_gt earlier]
  exact .refused (Notes.listed_rules .endOfKey _) (Nat.zero_lt_of_lt earlier)

theorem keyAgrees_parameters {behind letters : List Char}
    (positive : 0 < offsetOf total (':' :: behind)) :
    KeyAgrees ((run total ended (':' :: behind) {}).prepend [⟨.name, letters, []⟩]) (do
      match ← readParameters total behind with
      | (params, []) => return ⟨String.ofList letters, params⟩
      | (_, rest) => .error (.expected .endOfKey (offsetOf total rest))) := by
  have later := offsetOf_cons_lt positive
  have agree := agrees_readParameters (Nat.zero_lt_of_lt later)
  rw [← run_colon] at agree
  generalize ran : run total params (':' :: behind) {} = outcome at agree
  generalize readParameters total behind = result at agree
  cases agree with
  | @read part rest notes unnamed earlier =>
      rw [ended, run_followed (run_optional ran), Outcome.prepend_prepend]
      cases rest with
      | nil =>
          have named : ([⟨.name, letters, []⟩, part, ⟨.endOfKey, [], []⟩].filterMap
              Part.name?).getLastD "" = String.ofList letters := by
            have first : Part.name? ⟨.name, letters, []⟩ = some (String.ofList letters) := rfl
            rw [List.filterMap_cons_some first, List.filterMap_cons_none unnamed]
            rfl
          have given : [⟨.name, letters, []⟩, part, ⟨.endOfKey, [], []⟩].flatMap Part.params =
              part.params := List.append_nil part.params
          rw [run_end, ← given]
          dsimp only [ok_bind]
          rw [← named]
          exact .read
      | cons c rest => exact keyAgrees_end (List.cons_ne_nil c rest) earlier
  | @refused expectation notes listed within =>
      have kept := Nat.lt_of_lt_of_le later within
      rw [ended, run_followed (run_optional_of_failed ran),
        run_end_of_ne_nil (List.cons_ne_nil ':' behind), Notes.add_of_lt kept]
      exact .refused listed (Nat.zero_lt_of_lt kept)

/-- Behind its beginning a key is read by the rules as by the reader. -/
theorem keyAgrees_parse {key text : String} (started : afterStart? actionKeyStart key = some text) :
    KeyAgrees (run (byteLength key.toList) (.followed Pattern.name ended) text.toList {})
      (parse key) := by
  have positive : 0 < offsetOf (byteLength key.toList) text.toList := by
    rw [afterStart?_eq_some_iff.mp started, String.toList_append, offsetOf_append]
    decide
  unfold parse
  simp only [started]
  generalize byteLength key.toList = total at positive
  have reads : ∀ {c name rest}, takeIdentifier text.toList = (c :: name, rest) →
      run total (.followed Pattern.name ended) text.toList {} =
        (run total ended rest {}).prepend [⟨.name, c :: name, []⟩] ∧ 0 < offsetOf total rest := by
    intro c name rest taken
    exact ⟨run_followed (run_rule_identifier taken .name {}),
      Nat.lt_of_lt_of_le positive (offsetOf_le_of_suffix (takeIdentifier_suffix taken))⟩
  split
  next rest taken =>
    obtain rfl := rest_of_takeIdentifier taken
    have failed : run total (.followed Pattern.name ended) text.toList {} =
        .failed (Notes.add {} {} .name (offsetOf total text.toList)) :=
      run_followed_of_failed (run_rule_identifier_of_none taken .name {})
    rw [failed, Notes.add_of_gt positive]
    exact .refused (Notes.listed_rules .name _) positive
  next name nonempty taken =>
    obtain ⟨c, letters, rfl⟩ := List.exists_cons_of_ne_nil nonempty
    rw [(reads taken).1, run_ended_of_ne (by simp), run_end]
    exact .read
  next name behind nonempty taken =>
    obtain ⟨c, letters, rfl⟩ := List.exists_cons_of_ne_nil nonempty
    rw [(reads taken).1]
    exact keyAgrees_parameters (reads taken).2
  next name rest nonempty notEnded noColon taken =>
    obtain ⟨c, letters, rfl⟩ := List.exists_cons_of_ne_nil nonempty
    rw [(reads taken).1, run_ended_of_ne (head?_ne_of_forall noColon)]
    exact keyAgrees_end notEnded (reads taken).2

theorem run_key_inside {key text : String} (started : afterStart? actionKeyStart key = some text) :
    run (byteLength key.toList)
      (.followed .beginning (.followed (.text actionKeyStart.toList) (.followed name ended)))
      key.toList {} =
        run (byteLength key.toList) (.followed name ended) text.toList {} := by
  have letters : actionKeyStart.toList ++ text.toList = key.toList := by
    rw [afterStart?_eq_some_iff.mp started, String.toList_append]
  have begins : run (byteLength key.toList) .beginning key.toList {} =
      .matched [] key.toList {} := by
    rw [run, offsetOf, Nat.sub_self, if_pos rfl]
  have marked : run (byteLength key.toList) (.text actionKeyStart.toList) key.toList {} =
      .matched [] text.toList {} := by
    rw [run, List.isPrefixOf?_eq_some_iff_append_eq.mpr letters]
  rw [run_followed begins, run_followed marked, Outcome.prepend_nil, Outcome.prepend_nil]

theorem answer_run_key {key text : String} (started : afterStart? actionKeyStart key = some text) :
    (run (byteLength key.toList) Pattern.key key.toList {}).answer =
      (parse key).mapError Fault.message := by
  have agrees := keyAgrees_parse started
  rw [← run_key_inside started] at agrees
  generalize ran : run (byteLength key.toList) (.followed .beginning
    (.followed (.text actionKeyStart.toList) (.followed name ended))) key.toList {} = outcome
    at agrees
  generalize parse key = result at agrees
  cases agrees with
  | read =>
      rw [Pattern.key, run_rule ran]
      rfl
  | @refused expectation notes listed later =>
      have kept : offsetOf (byteLength key.toList) key.toList < notes.offset := by
        rwa [offsetOf, Nat.sub_self]
      rw [Pattern.key, run_rule_of_failed ran, Notes.add_of_lt kept]
      exact congrArg Except.error (Notes.message_of_listed listed)

end Keys

end Pattern

/-- Reading a key is running its rules. A key that is refused is reported by what the rules
have noted, in the same words. -/
theorem parse_eq_parseByRules (key : String) :
    (parse key).mapError Fault.message = parseByRules key := by
  unfold parseByRules
  cases started : afterStart? actionKeyStart key with
  | none =>
      have unmarked : ¬ actionKeyStart.toList.isPrefixOf key.toList = true := by
        rw [List.isPrefixOf_iff_prefix]
        rintro ⟨text, letters⟩
        have same : key = actionKeyStart ++ String.ofList text := by
          rw [← String.toList_inj, String.toList_append, String.toList_ofList, letters]
        exact afterStart?_eq_none_iff.mp started _ same
      rw [if_neg unmarked, parse, started]
      rfl
  | some text =>
      have marked : actionKeyStart.toList.isPrefixOf key.toList = true := by
        rw [List.isPrefixOf_iff_prefix, afterStart?_eq_some_iff.mp started, String.toList_append]
        exact List.prefix_append _ _
      rw [if_pos marked, Pattern.answer_run_key started]

end ActionKey

end EventBindings
