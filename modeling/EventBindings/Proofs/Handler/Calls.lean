import EventBindings.Proofs.Element.SingleAttribute
import EventBindings.Proofs.Handler.Actions

namespace EventBindings

/-!
The calls that handlers make of their parameters. A parameter is put between
apostrophes as it stands, so a call says what it was made of only because no
identifier has an apostrophe.
-/

namespace Text

/-- The texts between apostrophes. What has been read of an open one is given. -/
def scanQuoted : Option (List Char) → List Char → List String
  | _, [] => []
  | none, '\'' :: rest => scanQuoted (some []) rest
  | none, _ :: rest => scanQuoted none rest
  | some inside, '\'' :: rest => String.ofList inside :: scanQuoted none rest
  | some inside, c :: rest => scanQuoted (some (inside ++ [c])) rest

def quotedTexts (text : String) : List String :=
  scanQuoted none text.toList

theorem scanQuoted_plain {plain : List Char} (bare : '\'' ∉ plain) (rest : List Char) :
    scanQuoted none (plain ++ rest) = scanQuoted none rest := by
  induction plain with
  | nil => rfl
  | cons c plain ih =>
      rw [List.mem_cons, not_or] at bare
      rw [List.cons_append, scanQuoted, ih bare.2]
      exact fun quote => bare.1 quote.symm

theorem scanQuoted_inside {quoted : List Char} (bare : '\'' ∉ quoted) (inside rest : List Char) :
    scanQuoted (some inside) (quoted ++ '\'' :: rest) =
      String.ofList (inside ++ quoted) :: scanQuoted none rest := by
  induction quoted generalizing inside with
  | nil => simp [scanQuoted]
  | cons c quoted ih =>
      rw [List.mem_cons, not_or] at bare
      rw [List.cons_append, scanQuoted, ih bare.2, List.append_assoc, List.singleton_append]
      exact fun quote => bare.1 quote.symm

/-- The text has one quoted text, which is closed. -/
def Quotes (text quoted : String) : Prop :=
  ∀ rest, scanQuoted none (text.toList ++ rest) = quoted :: scanQuoted none rest

theorem quotes_of_letters {text quoted : String} (before behind : List Char)
    (letters : text.toList = before ++ '\'' :: (quoted.toList ++ '\'' :: behind))
    (bareBefore : '\'' ∉ before) (bare : '\'' ∉ quoted.toList) (bareBehind : '\'' ∉ behind) :
    Quotes text quoted := by
  intro rest
  rw [letters, List.append_assoc, List.cons_append, List.append_assoc, List.cons_append,
    scanQuoted_plain bareBefore, scanQuoted, scanQuoted_inside bare, scanQuoted_plain bareBehind,
    List.nil_append, String.ofList_toList]

theorem scanQuoted_intercalate (separator : String) (bare : '\'' ∉ separator.toList)
    {quoted : List String} {call : String → String}
    (each : ∀ text ∈ quoted, Quotes (call text) text) (rest : List Char) :
    scanQuoted none ((String.intercalate separator (quoted.map call)).toList ++ rest) =
      quoted ++ scanQuoted none rest := by
  induction quoted with
  | nil => simp
  | cons first quoted ih =>
      rw [List.forall_mem_cons] at each
      cases quoted with
      | nil => simpa using each.1 rest
      | cons second quoted =>
          rw [List.map_cons, List.map_cons, String.intercalate_cons_cons, String.toList_append,
            String.toList_append, List.append_assoc, List.append_assoc, each.1,
            scanQuoted_plain bare, ← List.map_cons, ih each.2]
          rfl

end Text

namespace Handler

open Text

/-- The call that a handler makes of the parameters in a key, and the arguments of the
call, as they stand between apostrophes. -/
inductive Calls : Handler → List String → List String → String → Prop
  | toggleClass {classes : List String} (given : classes ≠ []) :
      Calls .toggleClass classes classes
        ("$fir.toggleClass(" ++
          String.intercalate "," (classes.map fun name => "'" ++ name ++ "'") ++ ")")
  | dispatch {events : List String} (given : events ≠ []) :
      Calls .dispatch events events
        (String.intercalate "; " (events.map fun name => "$dispatch('" ++ name ++ "')"))
  | redirectToRoot : Calls .redirect [] ["/"] "$fir.redirect('/')"
  | redirect (path : String) :
      Calls .redirect [path] ["/" ++ path] ("$fir.redirect('/" ++ path ++ "')")

theorem dispatchText_eq (events : List String) : dispatchText events =
    String.intercalate "; " (events.map fun name => "$dispatch('" ++ name ++ "')") := by
  have call (name : String) : "$dispatch(" ++ quoteParam name ++ ")" =
      "$dispatch('" ++ name ++ "')" :=
    String.toList_inj.mp (by simp [quoteParam])
  simp only [dispatchText, call]

theorem redirectText_some (path : String) :
    redirectText (some path) = "$fir.redirect('/" ++ path ++ "')" := by
  unfold redirectText quoteParam
  exact String.toList_inj.mp (by simp)

theorem Supplies.calls {handler : Handler} {attr : ActionAttribute} {actions : ActionMap}
    {action : String} (supplies : Supplies attr actions handler action)
    (calling : handler ∈ [.toggleClass, .dispatch, .redirect]) :
    ∃ arguments, Calls handler attr.givenParams arguments action := by
  cases supplies with
  | toggleClass given => exact ⟨_, .toggleClass given⟩
  | dispatch given =>
      rw [dispatchText_eq]
      exact ⟨_, .dispatch given⟩
  | @redirect path given =>
      rw [given]
      cases path with
      | none => exact ⟨_, .redirectToRoot⟩
      | some path =>
          rw [redirectText_some]
          exact ⟨_, .redirect path⟩
  | _ => simp at calling

/-- The handler whose call begins the text. -/
def calledBy? (text : String) : Option Handler :=
  if (afterStart? "$fir.toggleClass(" text).isSome then some .toggleClass
  else if (afterStart? "$dispatch('" text).isSome then some .dispatch
  else if (afterStart? "$fir.redirect('/" text).isSome then some .redirect
  else none

theorem calledBy?_toggleClass (rest : String) :
    calledBy? ("$fir.toggleClass(" ++ rest) = some .toggleClass := by
  simp [calledBy?]

theorem calledBy?_dispatch (rest : String) :
    calledBy? ("$dispatch('" ++ rest) = some .dispatch := by
  have toggles (others : String) : "$dispatch('" ++ rest ≠ "$fir.toggleClass(" ++ others :=
    append_ne_append 1 (by decide) (by decide) (by decide) rest others
  simp [calledBy?, afterStart?_eq_none_iff.mpr toggles]

theorem calledBy?_redirect (rest : String) :
    calledBy? ("$fir.redirect('/" ++ rest) = some .redirect := by
  have toggles (others : String) : "$fir.redirect('/" ++ rest ≠ "$fir.toggleClass(" ++ others :=
    append_ne_append 5 (by decide) (by decide) (by decide) rest others
  have dispatches (others : String) : "$fir.redirect('/" ++ rest ≠ "$dispatch('" ++ others :=
    append_ne_append 1 (by decide) (by decide) (by decide) rest others
  simp [calledBy?, afterStart?_eq_none_iff.mpr toggles, afterStart?_eq_none_iff.mpr dispatches]

/-- The parameters that gave an argument. Only the call that leaves for a path changes
them. -/
def paramsOf : Handler → String → List String
  | .redirect, argument => ((afterStart? "/" argument).filter (· != "")).toList
  | _, argument => [argument]

/-- Reads a call back: the handler that makes it, and the parameters. -/
def readCall? (text : String) : Option (Handler × List String) :=
  (calledBy? text).map fun handler => (handler, (quotedTexts text).flatMap handler.paramsOf)

namespace Calls

variable {handler : Handler} {params arguments : List String} {text : String}

theorem calledBy?_eq (calls : Calls handler params arguments text) :
    calledBy? text = some handler := by
  cases calls with
  | toggleClass =>
      rw [String.append_assoc]
      exact calledBy?_toggleClass _
  | @dispatch events given =>
      obtain ⟨first, events, rfl⟩ := List.exists_cons_of_ne_nil given
      rw [List.map_cons, String.append_assoc, String.intercalate_cons_append]
      exact calledBy?_dispatch _
  | redirectToRoot => exact calledBy?_redirect "')"
  | redirect path =>
      rw [String.append_assoc]
      exact calledBy?_redirect _

theorem quotedTexts_eq (calls : Calls handler params arguments text)
    (named : ∀ param ∈ params, IsName param) : quotedTexts text = arguments := by
  have bare : ∀ param ∈ params, '\'' ∉ param.toList :=
    fun param member => (named param member).bare rfl
  cases calls with
  | toggleClass =>
      have each : ∀ name ∈ params, Quotes ("'" ++ name ++ "'") name := fun name member =>
        quotes_of_letters [] [] (by simp) (by decide) (bare name member) (by decide)
      rw [quotedTexts, String.toList_append, String.toList_append, List.append_assoc,
        scanQuoted_plain (by decide), scanQuoted_intercalate "," (by decide) each]
      simp [scanQuoted]
  | dispatch =>
      have each : ∀ name ∈ params, Quotes ("$dispatch('" ++ name ++ "')") name := fun name member =>
        quotes_of_letters "$dispatch(".toList [')'] (by simp) (by decide) (bare name member)
          (by decide)
      have scanned := scanQuoted_intercalate "; " (by decide) each []
      rwa [List.append_nil, scanQuoted, List.append_nil] at scanned
  | redirectToRoot => rfl
  | redirect path =>
      have bareArgument : '\'' ∉ ("/" ++ path).toList := by simpa using bare path
      have quotes : Quotes ("$fir.redirect('/" ++ path ++ "')") ("/" ++ path) :=
        quotes_of_letters "$fir.redirect(".toList [')'] (by simp) (by decide) bareArgument
          (by decide)
      simpa [quotedTexts, scanQuoted] using quotes []

/-- A call is read back, since its parameters are identifiers. -/
theorem readCall?_eq (calls : Calls handler params arguments text)
    (named : ∀ param ∈ params, IsName param) : readCall? text = some (handler, params) := by
  rw [readCall?, calls.calledBy?_eq, calls.quotedTexts_eq named]
  cases calls with
  | toggleClass | dispatch =>
      have unchanged : params.flatMap (fun argument => [argument]) = params :=
        List.flatMap_singleton' params
      exact congrArg (fun params => some (_, params)) unchanged
  | redirectToRoot => rfl
  | redirect path =>
      have nonempty : path ≠ "" := by
        intro empty
        exact (named path List.mem_cons_self).ne_nil (by simp [empty])
      simp [paramsOf, nonempty]

theorem text_eq {otherArguments : List String} {otherText : String}
    (calls : Calls handler params arguments text)
    (others : Calls handler params otherArguments otherText) : otherText = text := by
  cases calls <;> cases others <;> rfl

/-- No argument of a call has a character that would end it early or change it. -/
theorem not_mem_argument (calls : Calls handler params arguments text)
    (named : ∀ param ∈ params, IsName param) :
    ∀ argument ∈ arguments, ∀ c ∈ ['\'', '"', '\\', '\n'], c ∉ argument.toList := by
  have inParams : ∀ param ∈ params, ∀ c ∈ ['\'', '"', '\\', '\n'], c ∉ param.toList := by
    intro param member c listed
    have other : ∀ c ∈ ['\'', '"', '\\', '\n'], isIdentifierPart c = false := by
      simp [isIdentifierPart]
    exact (named param member).bare (other c listed)
  have slash : ∀ c ∈ ['\'', '"', '\\', '\n'], c ∉ "/".toList := by simp
  cases calls with
  | toggleClass | dispatch => exact inParams
  | redirectToRoot => exact List.forall_mem_singleton.mpr slash
  | redirect path =>
      rw [List.forall_mem_singleton] at inParams ⊢
      intro c listed
      rw [String.toList_append, List.mem_append, not_or]
      exact ⟨slash c listed, inParams c listed⟩

end Calls

section Translate

variable {key value : String} {attr : ActionAttribute} {handler : Handler} {actions : ActionMap}
  {lines : List Attribute}

theorem exists_calls_of_translate (named : ∀ param ∈ attr.params, IsName param)
    (calling : handler ∈ [.toggleClass, .dispatch, .redirect])
    (translated : handler.translate attr actions = .ok lines) :
    ∃ arguments text, Calls handler attr.params arguments text ∧
      ∀ line ∈ lines, line.value = text := by
  obtain ⟨text, supplies, supplied⟩ := supplies_of_translate translated
  obtain ⟨arguments, calls⟩ := supplies.calls calling
  rw [ActionAttribute.givenParams_of_named named] at calls
  exact ⟨arguments, text, calls, supplied⟩

/-- What is emitted for a key whose action makes a call says which handler makes it and
which parameters the key has, in their order. Each of them stands between apostrophes as
it is written, and has no character that would end it early. So other parameters give
another text, and so does another handler. -/
theorem translate_calls (read : ActionAttribute.parse key value = .ok attr)
    (calling : handler ∈ [.toggleClass, .dispatch, .redirect])
    (translated : handler.translate attr actions = .ok lines) :
    lines ≠ [] ∧
    ∃ arguments text, Calls handler attr.params arguments text ∧
      (∀ line ∈ lines, line.value = text) ∧ quotedTexts text = arguments ∧
      (∀ argument ∈ arguments, ∀ c ∈ ['\'', '"', '\\', '\n'], c ∉ argument.toList) ∧
      readCall? text = some (handler, attr.params) ∧
      ∀ otherKey otherValue otherAttr other otherActions otherLines,
        ActionAttribute.parse otherKey otherValue = .ok otherAttr →
        other ∈ [.toggleClass, .dispatch, .redirect] →
        other.translate otherAttr otherActions = .ok otherLines →
        ∀ line ∈ otherLines,
          line.value = text ↔ other = handler ∧ otherAttr.params = attr.params := by
  have named := ActionAttribute.named_of_parse read
  obtain ⟨arguments, text, calls, supplied⟩ := exists_calls_of_translate named calling translated
  refine ⟨ne_nil_of_translate translated, arguments, text, calls, supplied,
    calls.quotedTexts_eq named, calls.not_mem_argument named, calls.readCall?_eq named, ?_⟩
  intro _ _ otherAttr other _ _ otherRead otherCalling otherTranslated line member
  have otherNamed := ActionAttribute.named_of_parse otherRead
  obtain ⟨_, otherText, otherCalls, otherSupplied⟩ :=
    exists_calls_of_translate otherNamed otherCalling otherTranslated
  rw [otherSupplied line member]
  constructor
  · intro same
    have otherReadBack := otherCalls.readCall?_eq otherNamed
    rw [same, calls.readCall?_eq named] at otherReadBack
    obtain ⟨sameHandler, sameParams⟩ := Prod.mk.inj (Option.some.inj otherReadBack)
    exact ⟨sameHandler.symm, sameParams.symm⟩
  · intro alike
    obtain ⟨rfl, sameParams⟩ := alike
    rw [sameParams] at otherCalls
    exact calls.text_eq otherCalls

/-- Blanks around the names of a list do not get into the call, repeated names do. -/
theorem translate_calls_blanks :
    ActionAttribute.parse "x-fir-toggleClass:[ a, b ,a]" "save" =
      .ok ⟨"x-fir-toggleClass:[ a, b ,a]", "toggleClass", ["a", "b", "a"], "save"⟩ ∧
    Handler.toggleClass.translate
        ⟨"x-fir-toggleClass:[ a, b ,a]", "toggleClass", ["a", "b", "a"], "save"⟩ ∅ =
      .ok [⟨"@fir:save:ok.nohtml", "$fir.toggleClass('a','b','a')"⟩] ∧
    quotedTexts "$fir.toggleClass('a','b','a')" = ["a", "b", "a"] := by
  have read : ActionAttribute.parse "x-fir-toggleClass:[ a, b ,a]" "save" =
      .ok ⟨"x-fir-toggleClass:[ a, b ,a]", "toggleClass", ["a", "b", "a"], "save"⟩ := by
    decide +kernel
  have translated : Handler.toggleClass.translate
        ⟨"x-fir-toggleClass:[ a, b ,a]", "toggleClass", ["a", "b", "a"], "save"⟩ ∅ =
      .ok [⟨"@fir:save:ok.nohtml", "$fir.toggleClass('a','b','a')"⟩] := by decide +kernel
  obtain ⟨_, _, text, calls, supplied, quoted, _⟩ := translate_calls read (by decide) translated
  cases supplied _ List.mem_cons_self
  refine ⟨read, translated, ?_⟩
  cases calls
  exact quoted

end Translate

end Handler

end EventBindings
