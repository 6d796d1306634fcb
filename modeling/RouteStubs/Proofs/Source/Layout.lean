import Mathlib.Data.List.Forall2
import RouteStubs.Proofs.Source.Comment
import RouteStubs.Source.Render
/-!
The lines of a generated file, as they are read back from its text.

A stub is an empty line, a comment that holds the texts of the API description, and a function that
depends on the name and the verb only (`stubLines_eq`). Every line of a file is plain, so that the text of
the file splits into the lines it was made from (`splitLines_text`).
-/

namespace RouteStubs.Source

/-! ## §1 The parts of a stub -/

/-- The mark in front of the lines of a description. -/
def docMark : Language → Line
  | .go => "//".toList
  | .rust => "///".toList

/-- The first comment line of a stub. -/
def summary (language : Language) (name verb path : Line) : Line :=
  (stubLines language name verb path []).getD 1 []

/-- The comment of a stub. -/
def stubComment (language : Language) (name verb path : Line) (doc : List Line) : List Line :=
  summary language name verb path :: doc.map (commentLine (docMark language))

/-- The function of a stub. -/
def functionLines (language : Language) (name verb : Line) : List Line :=
  (stubLines language name verb [] []).drop 2

/-- A path and a description are in the comment of a stub and nowhere else. -/
theorem stubLines_eq (language : Language) (name verb path : Line) (doc : List Line) :
    stubLines language name verb path doc =
      [] :: (stubComment language name verb path doc ++ functionLines language name verb) := by
  cases language <;> rfl

/-! ## §2 Every line is plain -/

theorem plain_commentLine {mark text : Line} (hm : Plain mark) (ht : Plain text) :
    Plain (commentLine mark text) := by
  rw [commentLine]
  split
  · exact hm
  · have hspace : Plain [' '] := by decide
    exact hm.append (hspace.append ht)

theorem plain_docMark (language : Language) : Plain (docMark language) := by
  cases language with
  | go => exact plain_literal (by decide)
  | rust => exact plain_literal (by decide)

theorem plain_header (language : Language) : ∀ l ∈ header language, Plain l := by
  cases language with
  | go =>
    simp only [header, goHeader, List.forall_mem_cons]
    exact ⟨plain_literal (by decide), plain_nil, plain_literal (by decide), plain_nil,
      plain_literal (by decide), plain_literal (by decide), plain_literal (by decide),
      plain_literal (by decide), List.forall_mem_nil _⟩
  | rust =>
    simp only [header, rustHeader, List.forall_mem_cons]
    exact ⟨plain_literal (by decide), plain_nil, plain_literal (by decide), plain_nil,
      plain_literal (by decide), plain_nil, plain_literal (by decide), plain_literal (by decide),
      List.forall_mem_nil _⟩

theorem plain_mapStart (language : Language) : ∀ l ∈ mapStart language, Plain l := by
  cases language with
  | go =>
    simp only [mapStart, goMapStart, List.forall_mem_cons]
    exact ⟨plain_nil, plain_literal (by decide), plain_literal (by decide), List.forall_mem_nil _⟩
  | rust =>
    simp only [mapStart, rustMapStart, List.forall_mem_cons]
    exact ⟨plain_nil, plain_literal (by decide), plain_literal (by decide), plain_literal (by decide),
      List.forall_mem_nil _⟩

theorem plain_mapEnd (language : Language) : ∀ l ∈ mapEnd language, Plain l := by
  cases language with
  | go =>
    simp only [mapEnd, List.forall_mem_cons]
    exact ⟨plain_literal (by decide), List.forall_mem_nil _⟩
  | rust =>
    simp only [mapEnd, List.forall_mem_cons]
    exact ⟨plain_literal (by decide), plain_literal (by decide), List.forall_mem_nil _⟩

variable {name verb path : Line} {doc : List Line}

theorem plain_mapEntry (language : Language) (hn : Plain name) : Plain (mapEntry language name) := by
  cases language with
  | go =>
    have hopen : Plain "\t\"".toList := plain_literal (by decide)
    exact (((hopen.append hn).append (plain_literal (by decide))).append hn).append (by decide)
  | rust =>
    have hopen : Plain "    routes.insert(\"".toList := plain_literal (by decide)
    exact (((hopen.append hn).append (plain_literal (by decide))).append hn).append
      (plain_literal (by decide))

theorem plain_summary (language : Language) (hn : Plain name) (hv : Plain verb) (hp : Plain path) :
    Plain (summary language name verb path) := by
  cases language with
  | go =>
    have hmark : Plain "// ".toList := plain_literal (by decide)
    have hsubject : Plain ("// ".toList ++ name ++ " handles the URI ".toList) :=
      (hmark.append hn).append (plain_literal (by decide))
    exact (((hsubject.append hp).append (plain_literal (by decide))).append hv).append (by decide)
  | rust =>
    have hmark : Plain "/// Handles the URI \x60".toList := plain_literal (by decide)
    exact (((hmark.append hp).append (plain_literal (by decide))).append hv).append (by decide)

theorem plain_stubComment (language : Language) (hn : Plain name) (hv : Plain verb) (hp : Plain path)
    (hd : ∀ l ∈ doc, Plain l) : ∀ l ∈ stubComment language name verb path doc, Plain l := by
  intro l hl
  rcases List.mem_cons.mp hl with rfl | hl
  · exact plain_summary language hn hv hp
  · obtain ⟨line, hline, rfl⟩ := List.mem_map.mp hl
    exact plain_commentLine (plain_docMark language) (hd line hline)

theorem plain_functionLines (language : Language) (hn : Plain name) (hv : Plain verb) :
    ∀ l ∈ functionLines language name verb, Plain l := by
  intro l hl
  cases language with
  | go =>
    have hfunc : Plain "func ".toList := plain_literal (by decide)
    have hmessage : Plain "\t\t\"message\": \"".toList := plain_literal (by decide)
    simp only [functionLines, stubLines, goStub, List.map_nil, List.append_nil, List.cons_append,
      List.nil_append, List.drop_succ_cons, List.drop_zero, List.mem_cons, List.not_mem_nil,
      or_false] at hl
    rcases hl with rfl | rfl | rfl | rfl | rfl | rfl
    · exact (hfunc.append hn).append (plain_literal (by decide))
    · exact plain_literal (by decide)
    · exact ((hmessage.append hn).append hv).append (plain_literal (by decide))
    · exact plain_literal (by decide)
    · exact plain_literal (by decide)
    · exact plain_literal (by decide)
  | rust =>
    have hfunc : Plain "pub fn ".toList := plain_literal (by decide)
    have hmessage : Plain "    String::from(r#\"\x7b\"message\":\"".toList := plain_literal (by decide)
    simp only [functionLines, stubLines, rustStub, List.map_nil, List.append_nil, List.cons_append,
      List.nil_append, List.drop_succ_cons, List.drop_zero, List.mem_cons, List.not_mem_nil,
      or_false] at hl
    rcases hl with rfl | rfl | rfl
    · exact (hfunc.append hn).append (plain_literal (by decide))
    · exact ((hmessage.append hn).append hv).append (plain_literal (by decide))
    · exact plain_literal (by decide)

theorem plain_stub (language : Language) {e : Endpoint} (hn : Plain e.handler.toList) :
    ∀ l ∈ stub language e, Plain l := by
  intro l hl
  rw [stub, stubLines_eq] at hl
  rcases List.mem_cons.mp hl with rfl | hl
  · exact plain_nil
  rcases List.mem_append.mp hl with hl | hl
  · exact plain_stubComment language hn (plain_verb e.verb) (plain_onOneLine _)
      (fun _ hline => plain_docLines hline) l hl
  · exact plain_functionLines language hn (plain_verb e.verb) l hl

/-! ## §3 The text of a file -/

/-- The name of an endpoint that gets a stub is an identifier. -/
theorem isIdentifier_of_isUsable {language : Language} {e : Endpoint}
    (h : isUsable language e = true) : isIdentifier e.handler = true := by
  by_contra hnot
  rw [isUsable, nameProblem?] at h
  split at h
  · cases h
  · rw [if_pos (by simpa using hnot)] at h
    cases h

theorem continuesIdentifier_of_isUsable {language : Language} {e : Endpoint}
    (h : isUsable language e = true) : ∀ c ∈ e.handler.toList, continuesIdentifier c = true :=
  fun _ hc => continuesIdentifier_of_mem (isIdentifier_of_isUsable h) hc

theorem plain_fileLines (language : Language) {es : List Endpoint}
    (h : ∀ e ∈ es, Plain e.handler.toList) : ∀ l ∈ fileLines language es, Plain l := by
  intro l hl
  simp only [fileLines, List.mem_append, List.mem_map, List.mem_flatMap] at hl
  rcases hl with (((hl | hl) | ⟨e, he, rfl⟩) | hl) | ⟨e, he, hl⟩
  · exact plain_header language l hl
  · exact plain_mapStart language l hl
  · exact plain_mapEntry language (h e he)
  · exact plain_mapEnd language l hl
  · exact plain_stub language (h e he) l hl

/-- A handler with control characters in it is left out, so that every line of a file is plain. -/
theorem plain_render (language : Language) (es : List Endpoint) : ∀ l ∈ (render language es).lines, Plain l :=
  plain_fileLines language fun _ he =>
    plain_of_continuesIdentifier (continuesIdentifier_of_isUsable (List.of_mem_filter he))

/-- **The text of a file splits into the lines it was made from**, whatever the endpoints are. -/
theorem splitLines_text (language : Language) (es : List Endpoint) :
    Text.splitLines (render language es).text.toList =
      fileLines language (es.filter (isUsable language)) ++ [[]] := by
  rw [Rendered.text, String.toList_ofList]
  exact Text.splitLines_unlines fun l hl => (plain_render language es l hl).newline_notMem

/-! ## §4 The control characters of a file -/

/-- **The only control characters of a file are line feeds and tabs**, whatever texts the endpoints have. No carriage
return, no NUL and no next-line character gets into it. -/
theorem isControl_text (language : Language) (es : List Endpoint) :
    (∀ c ∈ (render language es).text.toList, Text.isControl c = true → c = '\n' ∨ c = '\t') ∧
      '\r' ∉ (render language es).text.toList ∧
      '\x00' ∉ (render language es).text.toList ∧
      '\u0085' ∉ (render language es).text.toList := by
  have hcontrol : ∀ c ∈ (render language es).text.toList, Text.isControl c = true → c = '\n' ∨ c = '\t' := by
    intro c hc hcontrol
    rw [Rendered.text, String.toList_ofList] at hc
    obtain ⟨l, hl, hcl⟩ := List.mem_flatMap.mp hc
    rcases List.mem_append.mp hcl with hcl | hcl
    · exact .inr (plain_render language es l hl c hcl hcontrol)
    · exact .inl (List.mem_singleton.mp hcl)
  refine ⟨hcontrol, ?_, ?_, ?_⟩
  · exact fun hmem => absurd (hcontrol _ hmem (by decide)) (by decide)
  · exact fun hmem => absurd (hcontrol _ hmem (by decide)) (by decide)
  · exact fun hmem => absurd (hcontrol _ hmem (by decide)) (by decide)

/-- An endpoint with control characters in its path and its description. -/
def noisyEndpoint : Endpoint where
  verb := .put
  handler := "PutMe"
  path := "/me\r\n\x00"
  description := "\x00Put\tme.\u0085\r\n\rNow.\x1b"

/-- Endpoints with control characters in every text. The handler of the first is left out. -/
def noisyEndpoints : List Endpoint := [{ verb := .get, handler := "Get\r\x00Me", path := "/me" }, noisyEndpoint]

theorem isControl_text_noisyEndpoints :
    ('\t' ∈ (render .rust noisyEndpoints).text.toList ∧ Text.isControl '\t' = true ∧ ('\t' = '\n' ∨ '\t' = '\t')) ∧
      '\r' ∉ (render .rust noisyEndpoints).text.toList := by
  have husable : isUsable .rust noisyEndpoint = true := by decide +kernel
  have hstub : "/// Put\tme.".toList ∈ stub .rust noisyEndpoint := by decide +kernel
  have hline : "/// Put\tme.".toList ∈ (render .rust noisyEndpoints).lines := by
    have hkept : noisyEndpoint ∈ noisyEndpoints.filter (isUsable .rust) :=
      List.mem_filter.mpr ⟨List.mem_cons_of_mem _ (List.mem_cons_self ..), husable⟩
    exact List.mem_append_right _ (List.mem_flatMap.mpr ⟨noisyEndpoint, hkept, hstub⟩)
  have htab : '\t' ∈ (render .rust noisyEndpoints).text.toList := by
    rw [Rendered.text, String.toList_ofList]
    exact List.mem_flatMap.mpr ⟨_, hline, List.mem_append_left _ (by decide)⟩
  obtain ⟨hcontrol, hreturn, -, -⟩ := isControl_text .rust noisyEndpoints
  exact ⟨⟨htab, by decide, hcontrol '\t' htab (by decide)⟩, hreturn⟩

end RouteStubs.Source
