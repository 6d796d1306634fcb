import RouteStubs.Proofs.Cli.Run
import RouteStubs.Proofs.HandlerName
import RouteStubs.Proofs.Listing.Json
import RouteStubs.Proofs.Text.Occurrences
import RouteStubs.Proofs.Walk.Declarations
/-!
The table of routes, line by line and read back.

A row names verb, handler and path, and the path is written as it is. Handlers are letters and digits, so that a row
is read back whatever the path is (`ofRow?_row`); what a path may break is the division of the table into rows.
`table_readBack` says that this is all: the table has one line for each endpoint exactly if no path has a line feed
in it, and then the routes are read back from it. `table_lineFeed` shows two descriptions with different routes and
the same table.
-/

namespace RouteStubs

open Files (Disk)
open Program (SearchPath)

/-! ## §1 Handlers -/

/-- The handlers that a walk delivers are made of ASCII letters and digits. -/
theorem Walk.isAlphanumeric_of_mem_handler {api : Api} {es : List Endpoint} (h : (ofApi api).toExcept = .ok es)
    {e : Endpoint} (he : e ∈ es) {c : Char} (hc : c ∈ e.handler.toList) : Text.isAlphanumeric c = true := by
  rw [eq_of_toExcept_eq_ok h] at he
  obtain ⟨d, -, rfl⟩ := List.mem_map.mp he
  have hchars : c ∈ handlerChars d.method.displayName.toList := by
    simpa [Declaration.endpoint, handlerName] using hc
  exact isAlphanumeric_of_mem_handlerChars hchars

/-! ## §2 Rows -/

/-- What a row of the table says of an endpoint. -/
structure Route where
  verb : Verb
  handler : String
  path : String
  deriving DecidableEq, Repr

/-- The route of an endpoint. -/
def Endpoint.route (e : Endpoint) : Route := ⟨e.verb, e.handler, e.path⟩

/-- The route that a row names. -/
def Route.ofRow? (row : List Char) : Option Route := do
  let fromVerb ← Text.dropStart? "verb: ".toList row
  let (verb, fromHandler) ← Text.splitAtFirst? " handler: ".toList fromVerb
  let (handler, path) ← Text.splitAtFirst? " path: ".toList fromHandler
  return ⟨← Verb.ofName? (String.ofList verb), String.ofList handler, String.ofList path⟩

/-- The routes in the lines of a table. -/
def Listing.readTable? (text : String) : Option (List Route) :=
  (Text.splitLines text.toList).dropLast.mapM Route.ofRow?

theorem toList_row (e : Endpoint) :
    e.row.toList = "verb: ".toList ++ (e.verb.name.toList ++ " handler: ".toList ++
      (e.handler.toList ++ " path: ".toList ++ e.path.toList)) := by
  simp only [Endpoint.row, String.toList_append, List.append_assoc]

/-- **A row is read back**, whatever its path is. -/
theorem Route.ofRow?_row {e : Endpoint} (h : ' ' ∉ e.handler.toList) : ofRow? e.row.toList = some e.route := by
  have hverb : ' ' ∉ e.verb.name.toList := by cases e.verb <;> decide
  have hhandler : ∀ rest,
      Text.splitAtFirst? " handler: ".toList (e.verb.name.toList ++ " handler: ".toList ++ rest) =
        some (e.verb.name.toList, rest) := Text.splitAtFirst?_append hverb _
  have hpath : ∀ rest, Text.splitAtFirst? " path: ".toList (e.handler.toList ++ " path: ".toList ++ rest) =
      some (e.handler.toList, rest) := Text.splitAtFirst?_append h _
  simp only [ofRow?, toList_row, Text.dropStart?_append, Option.bind_eq_bind, Option.bind_some, hhandler, hpath,
    String.ofList_toList, Verb.ofName?_name]
  rfl

/-- The line feeds in a row are those of its path. -/
theorem lineFeed_mem_row_iff {e : Endpoint} (h : '\n' ∉ e.handler.toList) :
    '\n' ∈ e.row.toList ↔ '\n' ∈ e.path.toList := by
  have hverb : '\n' ∉ e.verb.name.toList := by cases e.verb <;> decide
  have hmarks : '\n' ∉ "verb: ".toList ∧ '\n' ∉ " handler: ".toList ∧ '\n' ∉ " path: ".toList := by decide
  simp only [toList_row, List.mem_append, hverb, hmarks, h, false_or]

/-! ## §3 The table -/

theorem Text.count_unlines_cons (l : List Char) (ls : List (List Char)) :
    (unlines (l :: ls)).count '\n' = l.count '\n' + 1 + (unlines ls).count '\n' := by
  have hcons : unlines (l :: ls) = l ++ ['\n'] ++ unlines ls := rfl
  rw [hcons, List.count_append, List.count_append, List.count_singleton_self]

theorem Text.length_le_count_unlines (ls : List (List Char)) : ls.length ≤ (unlines ls).count '\n' := by
  induction ls with
  | nil => exact Nat.zero_le _
  | cons l ls ih =>
    rw [count_unlines_cons, List.length_cons]
    omega

/-- There are as many line feeds as lines exactly if there is none in a line. -/
theorem Text.count_unlines_eq_length_iff (ls : List (List Char)) :
    (unlines ls).count '\n' = ls.length ↔ ∀ l ∈ ls, '\n' ∉ l := by
  induction ls with
  | nil => simp [unlines]
  | cons l ls ih =>
    have hle := length_le_count_unlines ls
    rw [List.forall_mem_cons, ← ih, ← List.count_eq_zero, count_unlines_cons, List.length_cons]
    omega

namespace Cli

/-- Arguments ask for the table of routes of an API description with these endpoints. -/
def ListsRoutes (d : Disk) (arguments : List String) (es : List Endpoint) : Prop :=
  ∃ a, Request.ofArguments arguments = .ok (.run a) ∧ a.routes = true ∧ a.json = false ∧ a.Describes d es

namespace ListsRoutes

variable {d : Disk} {arguments : List String} {es : List Endpoint}

theorem toList_out (h : ListsRoutes d arguments es) (search : SearchPath) :
    (Outcome.ofArguments search d arguments).out.toList = Text.unlines (es.map (·.row.toList)) := by
  obtain ⟨a, haccepted, hroutes, hjson, hes⟩ := h
  have hplan : a.plan d = .printing (Listing.table es) := by
    rw [Arguments.plan_of_describes hes, if_pos hroutes, Plan.listing, hjson]
    rfl
  rw [Outcome.ofArguments_of_run haccepted, hplan]
  exact String.toList_ofList

theorem isAlphanumeric_of_mem_handler (h : ListsRoutes d arguments es) {e : Endpoint} (he : e ∈ es) {c : Char}
    (hc : c ∈ e.handler.toList) : Text.isAlphanumeric c = true := by
  obtain ⟨a, -, -, -, file, -, hwalk⟩ := h
  exact Walk.isAlphanumeric_of_mem_handler hwalk he hc

theorem lineFeed_notMem_handler (h : ListsRoutes d arguments es) {e : Endpoint} (he : e ∈ es) :
    '\n' ∉ e.handler.toList := fun hc =>
  absurd (h.isAlphanumeric_of_mem_handler he hc) (by decide)

/-- The lines of the table are its rows, if there is no line feed in a path. -/
theorem splitLines_out (h : ListsRoutes d arguments es) (hpaths : ∀ e ∈ es, '\n' ∉ e.path.toList)
    (search : SearchPath) :
    Text.splitLines (Outcome.ofArguments search d arguments).out.toList = es.map (·.row.toList) ++ [[]] := by
  rw [h.toList_out]
  refine Text.splitLines_unlines fun row hrow => ?_
  obtain ⟨e, he, rfl⟩ := List.mem_map.mp hrow
  rw [lineFeed_mem_row_iff (h.lineFeed_notMem_handler he)]
  exact hpaths e he

/-- The table has one line for each endpoint exactly if no path has a line feed in it. -/
theorem count_out_eq_length_iff (h : ListsRoutes d arguments es) (search : SearchPath) :
    (Outcome.ofArguments search d arguments).out.toList.count '\n' = es.length ↔
      ∀ e ∈ es, '\n' ∉ e.path.toList := by
  have hrows := Text.count_unlines_eq_length_iff (es.map (·.row.toList))
  rw [List.length_map, List.forall_mem_map] at hrows
  rw [h.toList_out, hrows]
  exact forall₂_congr fun e he => not_congr (lineFeed_mem_row_iff (h.lineFeed_notMem_handler he))

/-- The routes are read back from the table, if there is no line feed in a path. -/
theorem readTable?_out (h : ListsRoutes d arguments es) (hpaths : ∀ e ∈ es, '\n' ∉ e.path.toList)
    (search : SearchPath) :
    Listing.readTable? (Outcome.ofArguments search d arguments).out = some (es.map Endpoint.route) := by
  rw [Listing.readTable?, h.splitLines_out hpaths, List.dropLast_concat]
  refine Text.mapM_map_of_forall fun e he => Route.ofRow?_row fun hspace => ?_
  exact absurd (h.isAlphanumeric_of_mem_handler he hspace) (by decide)

/-- **The table of routes, line by line.** It has one line for each endpoint exactly if no path has a line feed in
it. In that case its lines are the rows in order, the routes are read back from them, and every API with as many
endpoints and the same table has the same routes. -/
theorem table_readBack (h : ListsRoutes d arguments es) (search : SearchPath) :
    ((Outcome.ofArguments search d arguments).out.toList.count '\n' = es.length ↔
      ∀ e ∈ es, '\n' ∉ e.path.toList) ∧
    ((∀ e ∈ es, '\n' ∉ e.path.toList) →
      Text.splitLines (Outcome.ofArguments search d arguments).out.toList = es.map (·.row.toList) ++ [[]] ∧
      Listing.readTable? (Outcome.ofArguments search d arguments).out = some (es.map Endpoint.route) ∧
      ∀ d' arguments' es', ListsRoutes d' arguments' es' → es'.length = es.length →
        (Outcome.ofArguments search d' arguments').out = (Outcome.ofArguments search d arguments).out →
        es'.map Endpoint.route = es.map Endpoint.route) := by
  refine ⟨h.count_out_eq_length_iff search, fun hpaths => ⟨h.splitLines_out hpaths search,
    h.readTable?_out hpaths search, fun d' arguments' es' h' hlength hout => ?_⟩⟩
  have hpaths' : ∀ e ∈ es', '\n' ∉ e.path.toList := by
    rw [← h'.count_out_eq_length_iff search, hout, hlength]
    exact (h.count_out_eq_length_iff search).mpr hpaths
  have hread := h'.readTable?_out hpaths' search
  rw [hout, h.readTable?_out hpaths search] at hread
  exact (Option.some.inj hread).symm

end ListsRoutes

/-- A description with two methods. -/
def twoRoutes : String :=
  "#%RAML 0.8\ntitle: T\n/a:\n  get:\n    displayName: A\n/b:\n  get:\n    displayName: B\n"

set_option maxRecDepth 20000 in
theorem listsRoutes_twoRoutes : ListsRoutes (describedBy twoRoutes) ["--routes"]
    [{ verb := .get, handler := "A", path := "/a" }, { verb := .get, handler := "B", path := "/b" }] := by
  have hroot : Yaml.Value.ofText twoRoutes.toList = .ok (.mapping [(.text "title", .text "T"),
      (.text "/a", .mapping [(.text "get", .mapping [(.text "displayName", .text "A")])]),
      (.text "/b", .mapping [(.text "get", .mapping [(.text "displayName", .text "B")])])]) := by
    rw [twoRoutes]
    rfl
  refine ⟨{ routes := true }, by decide +kernel, rfl, rfl, ?_⟩
  exact Arguments.describes_of_parse rfl ((Raml.parse_eq_ok (by decide +kernel) hroot).mpr rfl) rfl

/-- Two routes are two lines, from which they are read back. -/
theorem ListsRoutes.table_readBack_twoRoutes :
    ListsRoutes (describedBy twoRoutes) ["--routes"]
        [{ verb := .get, handler := "A", path := "/a" }, { verb := .get, handler := "B", path := "/b" }] ∧
      (Outcome.ofArguments .system (describedBy twoRoutes) ["--routes"]).out.toList.count '\n' = 2 ∧
      Listing.readTable? (Outcome.ofArguments .system (describedBy twoRoutes) ["--routes"]).out =
        some [⟨.get, "A", "/a"⟩, ⟨.get, "B", "/b"⟩] := by
  obtain ⟨hcount, hlines⟩ := table_readBack listsRoutes_twoRoutes .system
  have hpaths : ∀ e ∈ [({ verb := .get, handler := "A", path := "/a" } : Endpoint),
      { verb := .get, handler := "B", path := "/b" }], '\n' ∉ e.path.toList := by decide
  exact ⟨listsRoutes_twoRoutes, hcount.mpr hpaths, (hlines hpaths).2.1⟩

/-- A description with one method, below a key with a line feed in it. -/
def brokenRoute : String :=
  "#%RAML 0.8\ntitle: T\n\"/a\\nverb: GET handler: B path: /b\":\n  get:\n    displayName: A\n"

set_option maxRecDepth 20000 in
theorem listsRoutes_brokenRoute : ListsRoutes (describedBy brokenRoute) ["--routes"]
    [{ verb := .get, handler := "A", path := "/a\nverb: GET handler: B path: /b" }] := by
  have hroot : Yaml.Value.ofText brokenRoute.toList = .ok (.mapping [(.text "title", .text "T"),
      (.text "/a\nverb: GET handler: B path: /b",
        .mapping [(.text "get", .mapping [(.text "displayName", .text "A")])])]) := by
    rw [brokenRoute]
    rfl
  refine ⟨{ routes := true }, by decide +kernel, rfl, rfl, ?_⟩
  exact Arguments.describes_of_parse rfl ((Raml.parse_eq_ok (by decide +kernel) hroot).mpr rfl) rfl

/-- A path with a line feed in it makes a second line, which looks like that of a second route: two descriptions
with the same table and different routes. -/
theorem table_lineFeed :
    ListsRoutes (describedBy brokenRoute) ["--routes"]
        [{ verb := .get, handler := "A", path := "/a\nverb: GET handler: B path: /b" }] ∧
      ListsRoutes (describedBy twoRoutes) ["--routes"]
        [{ verb := .get, handler := "A", path := "/a" }, { verb := .get, handler := "B", path := "/b" }] ∧
      (Outcome.ofArguments .system (describedBy brokenRoute) ["--routes"]).out.toList =
        "verb: GET handler: A path: /a\nverb: GET handler: B path: /b\n".toList ∧
      (Outcome.ofArguments .system (describedBy twoRoutes) ["--routes"]).out.toList =
        "verb: GET handler: A path: /a\nverb: GET handler: B path: /b\n".toList := by
  refine ⟨listsRoutes_brokenRoute, listsRoutes_twoRoutes, ?_, ?_⟩
  · rw [listsRoutes_brokenRoute.toList_out]
    decide +kernel
  · rw [listsRoutes_twoRoutes.toList_out]
    decide +kernel

end Cli

end RouteStubs
