import RouteStubs.Proofs.HandlerName
import RouteStubs.Proofs.Source.ReadBack
import RouteStubs.Proofs.Walk.Declarations
/-!
Which endpoints are left out of a generated file.

A handler is `Unfit` to be the name of a function if it is empty, starts with a digit or is a reserved word. Handlers
are made of letters and digits, so these are all the reasons there are (`nameProblem?_isSome_iff`). A reserved word
that begins with a capital is one of two, so that a display name that begins with a letter is hardly ever left out.

`renderApi_skips` says this of the file for an API, method by method.
-/

namespace RouteStubs

/-- The handler that the display name of a declared method gives. -/
def Declaration.handler (d : Declaration) : String := handlerName d.method.displayName

namespace Source

/-! ## §1 Names that are not fit for a function -/

/-- The name is not fit for a function: it is empty, starts with a digit or is a reserved word. -/
def Unfit (language : Language) (name : String) : Prop :=
  name = "" ∨ Text.startsWithDigit name.toList = true ∨ name ∈ language.reservedWords

instance (language : Language) (name : String) : Decidable (Unfit language name) :=
  inferInstanceAs (Decidable (_ ∨ _ ∨ _))

/-- A name of letters and digits is left out exactly if it is unfit. -/
theorem nameProblem?_isSome_iff (language : Language) {name : String}
    (h : ∀ c ∈ name.toList, Text.isAlphanumeric c = true) :
    (nameProblem? language name).isSome ↔ Unfit language name := by
  have hidentifier := isIdentifierChars_iff h
  unfold nameProblem? Unfit isIdentifier Language.isReserved
  by_cases hempty : name = ""
  · simp [hempty]
  · have hne : name.toList ≠ [] := by simpa using hempty
    cases hdigit : Text.startsWithDigit name.toList with
    | true =>
      have hnot : isIdentifierChars name.toList = false := by
        rw [← Bool.not_eq_true, hidentifier, hdigit]
        simp
      simp [hempty, hnot]
    | false => simp [hempty, hidentifier.mpr ⟨hne, hdigit⟩]

theorem toList_handler (d : Declaration) : d.handler.toList = handlerChars d.method.displayName.toList := by
  simp [Declaration.handler, handlerName]

/-- The endpoint of a declared method gets a stub unless the handler is unfit. -/
theorem isUsable_endpoint (language : Language) (d : Declaration) :
    isUsable language d.endpoint = !decide (Unfit language d.handler) := by
  have hchars : ∀ c ∈ d.handler.toList, Text.isAlphanumeric c = true := by
    intro c hc
    rw [toList_handler] at hc
    exact isAlphanumeric_of_mem_handlerChars hc
  show (nameProblem? language d.handler).isNone = _
  rw [← Option.not_isSome, Bool.not_inj_iff, Bool.eq_iff_iff, nameProblem?_isSome_iff language hchars,
    decide_eq_true_iff]

/-- The reserved words that begin with a capital. -/
theorem mem_reservedWords_iff {language : Language} {name : String} {c : Char} {rest : List Char}
    (hname : name.toList = c :: rest) (hc : Text.isCapital c = true) :
    name ∈ language.reservedWords ↔
      language = .go ∧ name = "RouteMap" ∨ language = .rust ∧ name = "Self" := by
  have hcapital : name.toList.head?.any Text.isCapital = true := by simp [hname, hc]
  cases language with
  | go =>
    have hwords : ∀ word ∈ Language.go.reservedWords, word.toList.head?.any Text.isCapital = true →
        word = "RouteMap" := by decide +kernel
    have hreserved : "RouteMap" ∈ Language.go.reservedWords := by decide
    simp only [reduceCtorEq, true_and, false_and, or_false]
    exact ⟨fun hmem => hwords name hmem hcapital, fun heq => heq ▸ hreserved⟩
  | rust =>
    have hwords : ∀ word ∈ Language.rust.reservedWords, word.toList.head?.any Text.isCapital = true →
        word = "Self" := by decide +kernel
    have hreserved : "Self" ∈ Language.rust.reservedWords := by decide
    simp only [reduceCtorEq, true_and, false_and, false_or]
    exact ⟨fun hmem => hwords name hmem hcapital, fun heq => heq ▸ hreserved⟩

/-! ## §2 Display names that decide it -/

/-- A display name that begins with a letter gives a handler that is fit, unless it is one of two words. -/
theorem unfit_iff_of_isLetter {language : Language} {d : Declaration} {c : Char} {rest : List Char}
    (hname : Text.trimStart d.method.displayName.toList = c :: rest) (hc : Text.isLetter c = true) :
    Unfit language d.handler ↔
      language = .go ∧ d.handler = "RouteMap" ∨ language = .rust ∧ d.handler = "Self" := by
  obtain ⟨first, others, hchars, hcapital⟩ := handlerChars_of_isLetter hname hc
  rw [← toList_handler] at hchars
  have hne : d.handler ≠ "" := by
    intro hempty
    rw [hempty] at hchars
    cases hchars
  have hdigit : Text.startsWithDigit d.handler.toList = false := by
    rw [hchars]
    exact Text.not_isDigit_of_isLetter (by simp [Text.isLetter_eq, hcapital])
  unfold Unfit
  rw [← mem_reservedWords_iff hchars hcapital]
  simp [hne, hdigit]

/-- A display name without letters and digits gives a handler that is unfit, unless a word begins with a character
whose upper case is a letter. -/
theorem unfit_of_no_isAlphanumeric (language : Language) {d : Declaration}
    (hname : ∀ c ∈ d.method.displayName.toList, Text.isAlphanumeric c = false)
    (hwords : ∀ w ∈ Text.words d.method.displayName.toList, ∀ c ∈ w.head?, c ≠ '\u0131' ∧ c ≠ '\u017f') :
    Unfit language d.handler := by
  left
  rw [← String.toList_inj, toList_handler, handlerChars_eq_nil hname hwords]
  rfl

/-! ## §3 The file for an API -/

/-- The file has stubs for the methods whose handlers are fit, and leaves out the endpoints of the others. -/
structure Selects (language : Language) (ds : List Declaration) (r : Rendered) : Prop where
  endpoints : r.endpoints = ds.length
  handlers : r.handlers = (ds.filter fun d => ¬ Unfit language d.handler).map Declaration.handler
  skipped : r.skipped.map (fun s => (s.handler, s.location)) =
    (ds.filter fun d => Unfit language d.handler).map fun d => (d.handler, d.endpoint.location)

theorem filter_map_endpoint {p : Endpoint → Bool} {q : Declaration → Bool} (h : ∀ d, p d.endpoint = q d)
    (ds : List Declaration) :
    (ds.map Declaration.endpoint).filter p = (ds.filter q).map Declaration.endpoint := by
  rw [List.filter_map]
  exact congrArg _ (List.filter_congr fun d _ => h d)

theorem selects_render (language : Language) (ds : List Declaration) :
    Selects language ds (render language (ds.map Declaration.endpoint)) where
  endpoints := by simp [render]
  handlers := by
    have hkept := filter_map_endpoint (p := isUsable language) (q := fun d => ¬ Unfit language d.handler)
      (by simp [isUsable_endpoint]) ds
    show ((ds.map Declaration.endpoint).filter (isUsable language)).map (·.handler) = _
    rw [hkept, List.map_map]
    rfl
  skipped := by
    have hdropped := filter_map_endpoint (p := fun e => !isUsable language e)
      (q := fun d => Unfit language d.handler) (by simp [isUsable_endpoint]) ds
    have hskip := forall₂_skip? language (ds.map Declaration.endpoint)
    rw [hdropped, List.forall₂_map_left_iff] at hskip
    refine Eq.symm ?_
    rw [← List.forall₂_eq_eq_eq, List.forall₂_map_left_iff, List.forall₂_map_right_iff]
    refine hskip.imp fun d s hs => ?_
    obtain ⟨reason, -, rfl⟩ := Option.map_eq_some_iff.mp hs
    rfl

/-- **Which endpoints are left out of the file for an API.** Rendering succeeds where the walk does, and leaves out
exactly the endpoints of the methods whose display names give a handler that is empty, starts with a digit or is a
reserved word. If a display name begins, behind white space, with a letter, that is so only for the handlers
`RouteMap` and `Self`; and if it has no letter and no digit, that is always so, unless a word begins with a dotless i
or a long s. -/
theorem renderApi_skips (language : Language) {api : Api} {es : List Endpoint}
    (h : (Walk.ofApi api).toExcept = .ok es) :
    let ds := Resources.declarations api.resources
    es = ds.map Declaration.endpoint ∧
      (∃ r, renderApi language api = .ok r ∧ Selects language ds r) ∧
      ∀ d ∈ ds,
        (∀ c rest, Text.trimStart d.method.displayName.toList = c :: rest → Text.isLetter c = true →
          (Unfit language d.handler ↔
            language = .go ∧ d.handler = "RouteMap" ∨ language = .rust ∧ d.handler = "Self")) ∧
        ((∀ c ∈ d.method.displayName.toList, Text.isAlphanumeric c = false) →
          (∀ w ∈ Text.words d.method.displayName.toList, ∀ c ∈ w.head?, c ≠ '\u0131' ∧ c ≠ '\u017f') →
          Unfit language d.handler) := by
  have hes := Walk.eq_of_toExcept_eq_ok h
  refine ⟨hes, ⟨render language es, ?_, ?_⟩, ?_⟩
  · rw [renderApi, h]
    rfl
  · rw [hes]
    exact selects_render language _
  · intro d _
    exact ⟨fun c rest hname hc => unfit_iff_of_isLetter hname hc, unfit_of_no_isAlphanumeric language⟩

/-- An API with a display name for each reason to leave a handler out of a Go file, and one that is kept. -/
def mixedApi : Api where
  title := "Mixed"
  resources :=
    [("/a", {
      segment := "/a"
      methods := [(.get, { verb := .get, displayName := " get me" }),
        (.post, { verb := .post, displayName := "!!! ?" }),
        (.put, { verb := .put, displayName := "route map" }),
        (.patch, { verb := .patch, displayName := "2fa check" }),
        (.delete, { verb := .delete, displayName := "-json" })] })]

theorem renderApi_skips_mixedApi :
    (Walk.ofApi mixedApi).toExcept =
        .ok ((Resources.declarations mixedApi.resources).map Declaration.endpoint) ∧
      (∃ r, renderApi .go mixedApi = .ok r ∧ r.handlers = ["GetMe"] ∧
        r.skipped.map (fun s => (s.handler, s.location)) =
          [("", "POST /a"), ("RouteMap", "PUT /a"), ("2faCheck", "PATCH /a"), ("json", "DELETE /a")]) ∧
      (Text.trimStart "route map".toList = 'r' :: "oute map".toList ∧ Text.isLetter 'r' = true ∧
        (Unfit .go (handlerName "route map") ↔
          Language.go = .go ∧ handlerName "route map" = "RouteMap" ∨
            Language.go = .rust ∧ handlerName "route map" = "Self")) ∧
      ((∀ c ∈ "!!! ?".toList, Text.isAlphanumeric c = false) ∧ Text.words "!!! ?".toList = ["!!!".toList, ['?']] ∧
        Unfit .go (handlerName "!!! ?")) := by
  have hwalk : (Walk.ofApi mixedApi).toExcept =
      .ok ((Resources.declarations mixedApi.resources).map Declaration.endpoint) := by decide
  obtain ⟨-, ⟨r, hr, hselects⟩, hall⟩ := renderApi_skips .go hwalk
  have hput : ⟨⟨["/a"], .put⟩, { verb := .put, displayName := "route map" }, []⟩ ∈
      Resources.declarations mixedApi.resources := by decide
  have hpost : ⟨⟨["/a"], .post⟩, { verb := .post, displayName := "!!! ?" }, []⟩ ∈
      Resources.declarations mixedApi.resources := by decide
  have hnone : ∀ c ∈ "!!! ?".toList, Text.isAlphanumeric c = false := by
    simp [Text.isAlphanumeric, Text.isLetter, Text.isDigit]
  have hwords : Text.words "!!! ?".toList = ["!!!".toList, ['?']] := by decide
  have hfirst : ∀ w ∈ Text.words "!!! ?".toList, ∀ c ∈ w.head?, c ≠ '\u0131' ∧ c ≠ '\u017f' := by
    rw [hwords]
    simp
  refine ⟨hwalk, ⟨r, hr, hselects.handlers.trans (by decide), hselects.skipped.trans (by decide)⟩,
    ⟨by decide, by decide, ?_⟩, hnone, hwords, ?_⟩
  · exact (hall _ hput).1 'r' "oute map".toList (by decide) (by decide)
  · exact (hall _ hpost).2 hnone hfirst

end Source

end RouteStubs
