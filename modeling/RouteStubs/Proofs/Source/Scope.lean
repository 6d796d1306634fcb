import RouteStubs.Proofs.Source.Imports
/-!
What the names in a route map stand for.

An entry of a route map names a function. The name is meant to be that of a stub, which stands at the
outermost level of the file; but the fixed lines around the entries bind names of their own, and a name
that one of them binds stands for that. `entries_denote_stubs_iff` says which handlers are safe. The words
that a handler may not be named cover every name that the fixed lines bind but one: `routes`, the local
variable of the function that builds the map in a Rust file. `routes_denotes_no_stub` is an API with a
handler of that name.
-/

namespace RouteStubs.Source

/-! ## §1 Names and what they stand for -/

/-- The text in front of the first character that cannot go on with an identifier. -/
def leadingIdentifier (l : Line) : String := String.ofList (l.takeWhile continuesIdentifier)

/-- The name that a line binds for the lines around the route map: in Go a package or a variable of the
file, in Rust a function or a local variable. Names of types are apart from those of functions, and a
function may share its name with a type. -/
def boundOnLine? : Language → Line → Option String
  | .go, line =>
    (packageOfLine? line).or ((Text.dropStart? ['v', 'a', 'r', ' '] line).map leadingIdentifier)
  | .rust, line =>
    ((Text.dropStart? ['p', 'u', 'b', ' ', 'f', 'n', ' '] line).map leadingIdentifier).or
      ((Text.dropStart? [' ', ' ', ' ', ' ', 'l', 'e', 't', ' ', 'm', 'u', 't', ' '] line).map
        leadingIdentifier)

/-- The lines of a file up to the one that opens the route map. -/
def linesToMap (language : Language) (text : String) : List Line :=
  (Text.splitLines text.toList).takeWhile (· != mapOpening language) ++ [mapOpening language]

/-- The names that a file binds in front of its route map, in scopes that enclose the entries. -/
def boundNames (language : Language) (text : String) : List String :=
  (linesToMap language text).filterMap (boundOnLine? language)

/-- What an identifier in a route map stands for. -/
inductive Meaning where
  /-- What the fixed lines around the entries bind. -/
  | bound (name : String)
  /-- The stub of that name. -/
  | stub (name : String)
  deriving DecidableEq, Repr

/-- What a name stands for as the function of an entry. A name that is bound around the entries hides a
stub, and it clashes with a stub where both are at the outermost level. -/
def meaning? (language : Language) (text name : String) : Option Meaning :=
  if name ∈ boundNames language text then some (.bound name)
  else if name ∈ readFunctions language text then some (.stub name)
  else none

/-! ## §2 The names of a generated file -/

/-- The names that the fixed lines of a file bind around its route map. -/
def fixedNames : Language → List String
  | .go => ["json", "http", "RouteMap"]
  | .rust => ["route_map", "routes"]

theorem linesToMap_render (language : Language) (es : List Endpoint) :
    linesToMap language (render language es).text = header language ++ mapStart language := by
  have hnot : mapOpening language ∉ header language ++ (mapStart language).dropLast :=
    fun hmem => ne_mapOpening language _ hmem rfl
  have hlines : fileLines language (es.filter (isUsable language)) ++ [[]] =
      (header language ++ (mapStart language).dropLast) ++ mapOpening language ::
        ((es.filter (isUsable language)).map (fun e => mapEntry language e.handler.toList) ++
          mapEnd language ++ (es.filter (isUsable language)).flatMap (stub language) ++ [[]]) := by
    conv_lhs => rw [fileLines, mapStart_eq]
    simp only [List.append_assoc, List.cons_append, List.nil_append]
  rw [linesToMap, splitLines_text, hlines, (takeWhile_dropWhile_of_notMem hnot _).1, List.append_assoc,
    ← mapStart_eq]

/-- No endpoint adds to the names that are bound around a route map, and none takes one away. -/
theorem boundNames_render (language : Language) (es : List Endpoint) :
    boundNames language (render language es).text = fixedNames language := by
  rw [boundNames, linesToMap_render]
  cases language with
  | go => decide +kernel
  | rust => decide +kernel

/-- The reserved words cover all of these names but `routes`. -/
theorem mem_fixedNames_iff {language : Language} {name : String}
    (h : language.isReserved name = false) :
    name ∈ fixedNames language ↔ language = .rust ∧ name = "routes" := by
  have hnot : name ∉ language.reservedWords := by
    simpa [Language.isReserved] using h
  cases language with
  | go =>
    have hcovered : ∀ n ∈ fixedNames .go, n ∈ Language.go.reservedWords := by decide
    constructor
    · intro hmem
      exact absurd (hcovered name hmem) hnot
    · rintro ⟨hgo, -⟩
      cases hgo
  | rust =>
    constructor
    · intro hmem
      rcases List.mem_cons.mp hmem with rfl | hmem
      · exact absurd (by decide) hnot
      · exact ⟨rfl, List.mem_singleton.mp hmem⟩
    · rintro ⟨-, rfl⟩
      decide

theorem not_isReserved_of_isUsable {language : Language} {e : Endpoint}
    (h : isUsable language e = true) : language.isReserved e.handler = false := by
  by_contra hreserved
  rw [isUsable, nameProblem?] at h
  split at h
  · cases h
  · split at h
    · cases h
    · rw [if_pos (by simpa using hreserved)] at h
      cases h

/-- A handler that was not left out is not a reserved word. -/
theorem not_isReserved_of_mem_handlers {language : Language} {es : List Endpoint} {name : String}
    (h : name ∈ (render language es).handlers) : language.isReserved name = false := by
  obtain ⟨e, he, rfl⟩ := List.mem_map.mp h
  exact not_isReserved_of_isUsable (List.of_mem_filter he)

/-! ## §3 What handlers stand for -/

/-- A handler with a stub stands for the stub, unless the fixed lines bind its name. -/
theorem meaning?_render {language : Language} {es : List Endpoint} {name : String}
    (h : name ∈ (render language es).handlers) :
    meaning? language (render language es).text name =
      if name ∈ fixedNames language then some (.bound name) else some (.stub name) := by
  rw [meaning?, boundNames_render, readFunctions_render, if_pos h]

/-- **Which entries of a route map name their stub**: in the file for an API, those of all handlers except
`routes` in a Rust file. The entries are those of the handlers that were not left out, and the names that
the fixed lines bind are different from all of them but that one. -/
theorem entries_denote_stubs_iff {language : Language} {api : Api} {r : Rendered}
    (h : renderApi language api = .ok r) :
    ∃ entries, readEntries? language r.text = some entries ∧
      entries.map Entry.function = r.handlers ∧
      ∀ entry ∈ entries,
        (entry.function ∈ boundNames language r.text ↔
          language = .rust ∧ entry.function = "routes") ∧
        (meaning? language r.text entry.function = some (.stub entry.function) ↔
          ¬ (language = .rust ∧ entry.function = "routes")) := by
  obtain ⟨es, -, rfl⟩ : ∃ es, (Walk.ofApi api).toExcept = .ok es ∧ render language es = r := by
    rw [renderApi] at h
    cases hwalk : (Walk.ofApi api).toExcept with
    | error e =>
      rw [hwalk] at h
      cases h
    | ok es =>
      rw [hwalk] at h
      exact ⟨es, rfl, Except.ok.inj h⟩
  refine ⟨_, readEntries?_render language es, by simp [Function.comp_def], ?_⟩
  intro entry hentry
  obtain ⟨name, hname, rfl⟩ := List.mem_map.mp hentry
  have hbound : name ∈ fixedNames language ↔ language = .rust ∧ name = "routes" :=
    mem_fixedNames_iff (not_isReserved_of_mem_handlers hname)
  refine ⟨by rw [boundNames_render]; exact hbound, ?_⟩
  rw [meaning?_render hname, ← hbound]
  by_cases hmem : name ∈ fixedNames language <;> simp [hmem]

/-- An API whose only method has a display name that gives the handler `routes`. -/
def routesApi : Api :=
  (Api.empty "Routes").addResource
    ((Resource.empty "/a").addMethod { verb := .get, displayName := "-routes" })

theorem renderApi_routesApi (language : Language) :
    renderApi language routesApi =
      .ok (render language [{ verb := .get, handler := "routes", path := "/a" }]) := by
  have hwalk : (Walk.ofApi routesApi).toExcept =
      .ok [{ verb := .get, handler := "routes", path := "/a" }] := by decide
  rw [renderApi, hwalk]
  rfl

theorem entries_denote_stubs_iff_routesApi :
    ∃ r, renderApi .go routesApi = .ok r ∧ r.handlers = ["routes"] ∧
      ∃ entries, readEntries? .go r.text = some entries ∧ entries.map Entry.function = r.handlers ∧
        ∀ entry ∈ entries,
          (entry.function ∈ boundNames .go r.text ↔
            Language.go = .rust ∧ entry.function = "routes") ∧
          (meaning? .go r.text entry.function = some (.stub entry.function) ↔
            ¬ (Language.go = .rust ∧ entry.function = "routes")) :=
  ⟨_, renderApi_routesApi .go, by decide, entries_denote_stubs_iff (renderApi_routesApi .go)⟩

/-- In the Rust file for that API the entry of the handler names the route map itself. -/
theorem routes_denotes_no_stub :
    ∃ r, renderApi .rust routesApi = .ok r ∧ "routes" ∈ r.handlers ∧
      "routes" ∈ boundNames .rust r.text ∧
      meaning? .rust r.text "routes" = some (.bound "routes") := by
  have hkept : "routes" ∈
      (render .rust [{ verb := .get, handler := "routes", path := "/a" }]).handlers := by decide
  refine ⟨_, renderApi_routesApi .rust, hkept, ?_, ?_⟩
  · rw [boundNames_render]
    decide
  · rw [meaning?_render hkept]
    decide

end RouteStubs.Source
