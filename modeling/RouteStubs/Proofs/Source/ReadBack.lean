import RouteStubs.Proofs.Source.CodeLines
import RouteStubs.Proofs.Text.Occurrences
/-!
Generated files, read back from their text.

A reader finds the route map of a file by the line that opens it and the line that closes it, and reads
the names of its entries and the names of the functions behind it. `render_readBack` says that both are
the handlers that `render` reports, that the endpoints are those of the handlers and those that were left
out, in their order, and that the latter leave no trace in the file.
-/

namespace RouteStubs.Source

/-! ## §1 A reader for generated files -/

/-- An entry of a route map. -/
structure Entry where
  key : String
  function : String
  deriving DecidableEq, Repr

/-- What stands before the key of an entry, between key and function, and after the function. -/
structure EntryMarks where
  before : Line
  between : Line
  after : Line

/-- How an entry is written. -/
def entryMarks : Language → EntryMarks
  | .go => ⟨"\t\"".toList, "\": ".toList, [',']⟩
  | .rust => ⟨"    routes.insert(\"".toList, "\", ".toList, ");".toList⟩

/-- What starts the line that defines a function. -/
def functionMark : Language → Line
  | .go => "func ".toList
  | .rust => "pub fn ".toList

/-- The line that opens the route map. -/
def mapOpening : Language → Line
  | .go => "var RouteMap = map[string]http.HandlerFunc\x7b".toList
  | .rust => "    let mut routes: HashMap<&'static str, Handler> = HashMap::new();".toList

/-- The line that closes the route map. -/
def mapClosing : Language → Line
  | .go => ['\x7d']
  | .rust => "    routes".toList

/-- The entry that a line is, and nothing but an entry. -/
def entryOfLine? (language : Language) (line : Line) : Option Entry := do
  let marks := entryMarks language
  let fromKey ← Text.dropStart? marks.before line
  let (key, fromFunction) ← Text.splitAtFirst? marks.between fromKey
  let (function, rest) ← Text.splitAtFirst? marks.after fromFunction
  if rest.isEmpty then some ⟨String.ofList key, String.ofList function⟩ else none

/-- The name of the function that a line defines, up to the parameters. -/
def functionOfLine? (language : Language) (line : Line) : Option String :=
  (Text.dropStart? (functionMark language) line).map fun rest =>
    String.ofList (rest.takeWhile (· != '('))

/-- The lines behind the one that opens the route map. -/
def linesFromMap (language : Language) (text : String) : List Line :=
  ((Text.splitLines text.toList).dropWhile (· != mapOpening language)).tail

/-- The entries of the route map, if all of its lines are entries. -/
def readEntries? (language : Language) (text : String) : Option (List Entry) :=
  ((linesFromMap language text).takeWhile (· != mapClosing language)).mapM (entryOfLine? language)

/-- The names of the functions that are defined behind the route map. -/
def readFunctions (language : Language) (text : String) : List String :=
  ((linesFromMap language text).dropWhile (· != mapClosing language)).filterMap (functionOfLine? language)

/-! ## §2 One line -/

theorem mapEntry_eq (language : Language) (name : Line) :
    mapEntry language name = (entryMarks language).before ++ (name ++ (entryMarks language).between ++
      (name ++ (entryMarks language).after ++ [])) := by
  have hassoc : ∀ before between after : Line, before ++ name ++ between ++ name ++ after =
      before ++ (name ++ between ++ (name ++ after ++ [])) := by simp
  cases language <;> exact hassoc ..

theorem entryOfLine?_mapEntry (language : Language) {name : Line}
    (h : ∀ c ∈ name, continuesIdentifier c = true) :
    entryOfLine? language (mapEntry language name) = some ⟨String.ofList name, String.ofList name⟩ := by
  have hnot : ∀ c, continuesIdentifier c = false → c ∉ name := fun c hc hmem => by
    rw [h c hmem] at hc
    cases hc
  have hbetween : ∀ rest, Text.splitAtFirst? (entryMarks language).between
      (name ++ (entryMarks language).between ++ rest) = some (name, rest) := by
    intro rest
    cases language with
    | go => exact Text.splitAtFirst?_append (hnot '"' (by decide)) [':', ' '] rest
    | rust => exact Text.splitAtFirst?_append (hnot '"' (by decide)) [',', ' '] rest
  have hafter : ∀ rest, Text.splitAtFirst? (entryMarks language).after
      (name ++ (entryMarks language).after ++ rest) = some (name, rest) := by
    intro rest
    cases language with
    | go => exact Text.splitAtFirst?_append (hnot ',' (by decide)) [] rest
    | rust => exact Text.splitAtFirst?_append (hnot ')' (by decide)) [';'] rest
  simp only [mapEntry_eq, entryOfLine?, Text.dropStart?_append, Option.bind_eq_bind, Option.bind_some,
    hbetween, hafter]
  rfl

theorem entryOfLine?_mapClosing (language : Language) : entryOfLine? language (mapClosing language) = none := by
  cases language <;> rfl

theorem functionOfLine?_append (language : Language) {name : Line}
    (h : ∀ c ∈ name, continuesIdentifier c = true) {parameters : Line}
    (hp : parameters.head? = some '(') :
    functionOfLine? language (functionMark language ++ name ++ parameters) =
      some (String.ofList name) := by
  have hname : ∀ c ∈ name, (c != '(') = true := by
    intro c hc
    rw [bne_iff_ne]
    rintro rfl
    exact absurd (h '(' hc) (by decide)
  obtain ⟨rest, rfl⟩ := List.head?_eq_some_iff.mp hp
  rw [functionOfLine?, List.append_assoc, Text.dropStart?_append, Option.map_some,
    List.takeWhile_append_of_pos hname, List.takeWhile_cons_of_neg (by decide), List.append_nil]

theorem functionOfLine?_literal {language : Language} {l : Line} (h : functionOfLine? language l = none) :
    functionOfLine? language (String.ofList l).toList = none := by
  rwa [String.toList_ofList]

theorem functionOfLine?_message {language : Language} {l name verb rest : Line}
    (h : functionOfLine? language (l ++ (name ++ (verb ++ rest))) = none) :
    functionOfLine? language ((String.ofList l).toList ++ name ++ verb ++ rest) = none := by
  rwa [String.toList_ofList, List.append_assoc, List.append_assoc]

theorem functionOfLine?_of_isComment (language : Language) {l : Line} (h : isComment l = true) :
    functionOfLine? language l = none := by
  obtain ⟨rest, rfl⟩ := List.isPrefixOf_iff_prefix.mp h
  cases language <;> rfl

/-! ## §3 One stub -/

/-- The first line of a function is read back as its name, and its other lines are not read at all. -/
theorem filterMap_functionLines (language : Language) {name : Line}
    (h : ∀ c ∈ name, continuesIdentifier c = true) (verb : Line) :
    (functionLines language name verb).filterMap (functionOfLine? language) = [String.ofList name] := by
  have hfunction : ∀ {first : Line} {body : List Line}, functionOfLine? language first =
      some (String.ofList name) → (∀ l ∈ body, functionOfLine? language l = none) →
      (first :: body).filterMap (functionOfLine? language) = [String.ofList name] := by
    intro first body hfirst hbody
    rw [List.filterMap_cons_some hfirst, List.filterMap_eq_nil_iff.mpr hbody]
  cases language with
  | go =>
    refine hfunction (functionOfLine?_append .go h (by decide)) ?_
    simp only [List.forall_mem_cons]
    exact ⟨functionOfLine?_literal rfl, functionOfLine?_message rfl, functionOfLine?_literal rfl,
      functionOfLine?_literal rfl, functionOfLine?_literal rfl, List.forall_mem_nil _⟩
  | rust =>
    refine hfunction (functionOfLine?_append .rust h (by decide)) ?_
    simp only [List.forall_mem_cons]
    exact ⟨functionOfLine?_message rfl, functionOfLine?_literal rfl, List.forall_mem_nil _⟩

/-- The comment of a stub hides no function and adds none. -/
theorem filterMap_stub (language : Language) {e : Endpoint} (h : isUsable language e = true) :
    (stub language e).filterMap (functionOfLine? language) = [e.handler] := by
  have hcomment : (stubComment language e.handler.toList e.verb.name.toList (onOneLine e.path.toList)
      (docLines e.description.toList)).filterMap (functionOfLine? language) = [] :=
    List.filterMap_eq_nil_iff.mpr fun l hl =>
      functionOfLine?_of_isComment language (isComment_stubComment language _ _ _ _ l hl)
  have hempty : functionOfLine? language [] = none := by cases language <;> rfl
  rw [stub, stubLines_eq, List.filterMap_cons_none hempty, List.filterMap_append, hcomment,
    List.nil_append, filterMap_functionLines language (continuesIdentifier_of_isUsable h),
    String.ofList_toList]

/-! ## §4 The whole file -/

theorem takeWhile_dropWhile_of_notMem {x : Line} {before : List Line} (h : x ∉ before)
    (rest : List Line) :
    (before ++ x :: rest).takeWhile (· != x) = before ∧
      (before ++ x :: rest).dropWhile (· != x) = x :: rest := by
  have hne : ∀ l ∈ before, (l != x) = true := by
    intro l hl
    rw [bne_iff_ne]
    rintro rfl
    exact h hl
  have hx : (x != x) = false := bne_self_eq_false x
  constructor
  · rw [List.takeWhile_append_of_pos hne, List.takeWhile_cons, hx, if_neg Bool.false_ne_true,
      List.append_nil]
  · rw [List.dropWhile_append_of_pos hne, List.dropWhile_cons, hx, if_neg Bool.false_ne_true]

theorem mapStart_eq (language : Language) :
    mapStart language = (mapStart language).dropLast ++ [mapOpening language] := by
  cases language <;> rfl

theorem mapEnd_eq (language : Language) :
    mapEnd language = mapClosing language :: (mapEnd language).tail := by
  cases language <;> rfl

theorem literal_ne {l k : Line} (h : l ≠ k) : (String.ofList l).toList ≠ (String.ofList k).toList := by
  rwa [String.toList_ofList, String.toList_ofList]

theorem nil_ne_literal {k : Line} (h : [] ≠ k) : [] ≠ (String.ofList k).toList := by
  rwa [String.toList_ofList]

theorem ne_mapOpening (language : Language) :
    ∀ l ∈ header language ++ (mapStart language).dropLast, l ≠ mapOpening language := by
  cases language with
  | go =>
    simp only [header, goHeader, mapStart, goMapStart, List.dropLast, List.cons_append, List.nil_append,
      List.forall_mem_cons]
    exact ⟨literal_ne (by decide), nil_ne_literal (by decide), literal_ne (by decide),
      nil_ne_literal (by decide), literal_ne (by decide), literal_ne (by decide),
      literal_ne (by decide), literal_ne (by decide), nil_ne_literal (by decide),
      literal_ne (by decide), List.forall_mem_nil _⟩
  | rust =>
    simp only [header, rustHeader, mapStart, rustMapStart, List.dropLast, List.cons_append,
      List.nil_append, List.forall_mem_cons]
    exact ⟨literal_ne (by decide), nil_ne_literal (by decide), literal_ne (by decide),
      nil_ne_literal (by decide), literal_ne (by decide), nil_ne_literal (by decide),
      literal_ne (by decide), literal_ne (by decide), nil_ne_literal (by decide),
      literal_ne (by decide), literal_ne (by decide), List.forall_mem_nil _⟩

theorem ne_mapClosing (language : Language) {es : List Endpoint}
    (h : ∀ e ∈ es, isUsable language e = true) :
    mapClosing language ∉ es.map fun e => mapEntry language e.handler.toList := by
  intro hmem
  obtain ⟨e, he, heq⟩ := List.mem_map.mp hmem
  have hread := entryOfLine?_mapEntry language (continuesIdentifier_of_isUsable (h e he))
  rw [heq, entryOfLine?_mapClosing] at hread
  cases hread

/-- Behind the opening line of a route map are its entries, its closing line, and the stubs. -/
theorem linesFromMap_render (language : Language) (es : List Endpoint) :
    linesFromMap language (render language es).text =
      (es.filter (isUsable language)).map (fun e => mapEntry language e.handler.toList) ++
        mapClosing language :: ((mapEnd language).tail ++
          (es.filter (isUsable language)).flatMap (stub language) ++ [[]]) := by
  have hnot : mapOpening language ∉ header language ++ (mapStart language).dropLast :=
    fun hmem => ne_mapOpening language _ hmem rfl
  have hlines : fileLines language (es.filter (isUsable language)) ++ [[]] =
      (header language ++ (mapStart language).dropLast) ++ mapOpening language ::
        ((es.filter (isUsable language)).map (fun e => mapEntry language e.handler.toList) ++
          mapClosing language :: ((mapEnd language).tail ++
            (es.filter (isUsable language)).flatMap (stub language) ++ [[]])) := by
    conv_lhs => rw [fileLines, mapStart_eq, mapEnd_eq]
    simp only [List.append_assoc, List.cons_append, List.nil_append]
  rw [linesFromMap, splitLines_text, hlines, (takeWhile_dropWhile_of_notMem hnot _).2, List.tail_cons]

theorem mapM_entryOfLine? (language : Language) {es : List Endpoint}
    (h : ∀ e ∈ es, isUsable language e = true) :
    (es.map fun e => mapEntry language e.handler.toList).mapM (entryOfLine? language) =
      some (es.map fun e => ⟨e.handler, e.handler⟩) := by
  refine Text.mapM_map_of_forall fun e he => ?_
  have hread := entryOfLine?_mapEntry language (continuesIdentifier_of_isUsable (h e he))
  rwa [String.ofList_toList] at hread

/-- The route map is read back as the handlers, each an entry for itself. -/
theorem readEntries?_render (language : Language) (es : List Endpoint) :
    readEntries? language (render language es).text =
      some ((render language es).handlers.map fun h => ⟨h, h⟩) := by
  have husable : ∀ e ∈ es.filter (isUsable language), isUsable language e = true :=
    fun _ => List.of_mem_filter
  rw [readEntries?, linesFromMap_render,
    (takeWhile_dropWhile_of_notMem (ne_mapClosing language husable) _).1,
    mapM_entryOfLine? language husable, render, List.map_map]
  rfl

/-- The functions behind the route map are read back as the handlers. -/
theorem readFunctions_render (language : Language) (es : List Endpoint) :
    readFunctions language (render language es).text = (render language es).handlers := by
  have husable : ∀ e ∈ es.filter (isUsable language), isUsable language e = true :=
    fun _ => List.of_mem_filter
  have hend : (mapClosing language :: (mapEnd language).tail).filterMap (functionOfLine? language) =
      [] := by
    cases language <;> rfl
  have hempty : ([[]] : List Line).filterMap (functionOfLine? language) = [] := by
    cases language <;> rfl
  have hstubs : ∀ us : List Endpoint, (∀ e ∈ us, isUsable language e = true) →
      (us.flatMap (stub language)).filterMap (functionOfLine? language) = us.map (·.handler) := by
    intro us hus
    induction us with
    | nil => rfl
    | cons e us ih =>
      obtain ⟨he, hus⟩ := List.forall_mem_cons.mp hus
      rw [List.flatMap_cons, List.filterMap_append, filterMap_stub language he, ih hus]
      rfl
  rw [readFunctions, linesFromMap_render,
    (takeWhile_dropWhile_of_notMem (ne_mapClosing language husable) _).2, ← List.cons_append,
    ← List.cons_append, List.filterMap_append, List.filterMap_append, hend, hempty,
    hstubs _ husable, List.nil_append, List.append_nil, render]

/-! ## §5 The account of the endpoints -/

/-- The third list is made of the elements of the other two, and has those of each in their order. -/
inductive Interleaves {α : Type} : List α → List α → List α → Prop
  | nil : Interleaves [] [] []
  | left {x : α} {xs ys zs : List α} (rest : Interleaves xs ys zs) : Interleaves (x :: xs) ys (x :: zs)
  | right {y : α} {xs ys zs : List α} (rest : Interleaves xs ys zs) : Interleaves xs (y :: ys) (y :: zs)

theorem Interleaves.length_eq {α : Type} {xs ys zs : List α} (h : Interleaves xs ys zs) :
    zs.length = xs.length + ys.length := by
  induction h with
  | nil => rfl
  | left _ ih => rw [List.length_cons, List.length_cons, ih, Nat.add_right_comm]
  | right _ ih => rw [List.length_cons, List.length_cons, ih, Nat.add_assoc]

theorem interleaves_filter {α : Type} (p : α → Bool) (l : List α) :
    Interleaves (l.filter p) (l.filter fun x => !p x) l := by
  induction l with
  | nil => exact .nil
  | cons x l ih =>
    cases hx : p x with
    | true =>
      rw [List.filter_cons_of_pos hx, List.filter_cons_of_neg (by simp [hx])]
      exact .left ih
    | false =>
      rw [List.filter_cons_of_neg (by simp [hx]), List.filter_cons_of_pos (by simp [hx])]
      exact .right ih

/-- What a list is mapped to comes, one by one, from the members that are mapped to something. -/
theorem forall₂_filterMap {α β : Type} (f : α → Option β) (l : List α) :
    List.Forall₂ (fun a b => f a = some b) (l.filter fun a => (f a).isSome) (l.filterMap f) := by
  induction l with
  | nil => exact .nil
  | cons a l ih => cases h : f a <;> simp [h, ih]

/-- What is listed as left out is the endpoint: it has the handler, the verb and the path, and a reason why no function
can have that name. -/
structure Skipped.Lists (s : Skipped) (language : Language) (e : Endpoint) : Prop where
  handler : s.handler = e.handler
  location : s.location = e.verb.name ++ " " ++ e.path
  reason : nameProblem? language e.handler = some s.reason

theorem Skipped.lists_of_skip? {language : Language} {e : Endpoint} {s : Skipped} (h : skip? language e = some s) :
    s.Lists language e := by
  obtain ⟨reason, hreason, rfl⟩ := Option.map_eq_some_iff.mp h
  exact ⟨rfl, rfl, hreason⟩

/-- Each endpoint without a stub is in the list of those left out, once and in order. -/
theorem forall₂_skip? (language : Language) (es : List Endpoint) :
    List.Forall₂ (fun e s => skip? language e = some s) (es.filter fun e => !isUsable language e)
      (es.filterMap (skip? language)) := by
  have hskip : ∀ e, (skip? language e).isSome = !isUsable language e := by
    intro e
    simp [skip?, isUsable]
  simpa [hskip] using forall₂_filterMap (skip? language) es

/-- An endpoint without a stub leaves no trace in the file. -/
theorem text_render_filter (language : Language) (es : List Endpoint) :
    (render language (es.filter (isUsable language))).text = (render language es).text := by
  simp only [render, Rendered.text, List.filter_filter, Bool.and_self]

/-- **A generated file can be read back**: the entries of its route map and the functions behind it are
the reported handlers, in order. The endpoints are those of the handlers and those that are listed as left
out, interleaved, and the file is the same without the latter. -/
theorem render_readBack (language : Language) (es : List Endpoint) :
    let r := render language es
    readEntries? language r.text = some (r.handlers.map fun h => ⟨h, h⟩) ∧
      readFunctions language r.text = r.handlers ∧
      r.endpoints = r.handlers.length + r.skipped.length ∧
      ∃ kept dropped, Interleaves kept dropped es ∧ kept.map (·.handler) = r.handlers ∧
        List.Forall₂ (fun e s => s.Lists language e) dropped r.skipped ∧
        (render language kept).text = r.text := by
  intro r
  have hinterleaves : Interleaves (es.filter (isUsable language))
      (es.filter fun e => !isUsable language e) es := interleaves_filter (isUsable language) es
  have hskipped : List.Forall₂ (fun e s => s.Lists language e) (es.filter fun e => !isUsable language e) r.skipped :=
    (forall₂_skip? language es).imp fun _ _ => Skipped.lists_of_skip?
  have hcount : r.endpoints = r.handlers.length + r.skipped.length := by
    have hhandlers : r.handlers.length = (es.filter (isUsable language)).length := List.length_map _
    rw [hhandlers, ← hskipped.length_eq, ← hinterleaves.length_eq]
    rfl
  exact ⟨readEntries?_render language es, readFunctions_render language es, hcount, _, _,
    hinterleaves, rfl, hskipped, text_render_filter language es⟩

end RouteStubs.Source
