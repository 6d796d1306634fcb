import RouteStubs.Proofs.Source.Layout
/-!
What an API description can put into the code of a generated file.

The lines of a file that are not comments are those of a `skeleton`, which is made from handlers and verbs
only. `codeLines_render_congr` compares two runs: endpoints that agree on verb and handler give the same
code, whatever their paths, descriptions and parameters are.
-/

namespace RouteStubs.Source

/-! ## §1 Code and comments -/

/-- The line starts with two slashes, as comments do in every language. -/
def isComment (l : Line) : Bool := ['/', '/'].isPrefixOf l

/-- The lines of a text that are not comments, where a line feed ends a line and nothing else does. -/
def codeLines (text : String) : List Line :=
  (Text.splitLines text.toList).filter (!isComment ·)

theorem isComment_commentLine (language : Language) (text : Line) :
    isComment (commentLine (docMark language) text) = true := by
  rw [commentLine]
  cases language with
  | go => split <;> rfl
  | rust => split <;> rfl

theorem isComment_summary (language : Language) (name verb path : Line) :
    isComment (summary language name verb path) = true := by
  cases language <;> rfl

theorem isComment_stubComment (language : Language) (name verb path : Line) (doc : List Line) :
    ∀ l ∈ stubComment language name verb path doc, isComment l = true := by
  intro l hl
  rcases List.mem_cons.mp hl with rfl | hl
  · exact isComment_summary language name verb path
  · obtain ⟨line, -, rfl⟩ := List.mem_map.mp hl
    exact isComment_commentLine language line

/-! ## §2 The code of a file -/

/-- What code depends on: the handler and the verb of an endpoint. -/
abbrev Signature := String × Verb

/-- The handler and the verb of an endpoint. -/
def signature (e : Endpoint) : Signature := (e.handler, e.verb)

/-- The signature gets a stub. -/
def Signature.isUsable (language : Language) (s : Signature) : Bool := (nameProblem? language s.1).isNone

/-- A stub without its comment. -/
def bareStub (language : Language) (s : Signature) : List Line :=
  [] :: functionLines language s.1.toList s.2.name.toList

/-- A file without the comments of its stubs. -/
def skeleton (language : Language) (signatures : List Signature) : List Line :=
  header language ++ mapStart language ++
    signatures.map (fun s => mapEntry language s.1.toList) ++ mapEnd language ++
    signatures.flatMap (bareStub language) ++ [[]]

/-- Nothing of a path or a description is left of a stub without its comments. -/
theorem filter_stub (language : Language) (e : Endpoint) :
    (stub language e).filter (!isComment ·) =
      (bareStub language (signature e)).filter (!isComment ·) := by
  have hcomment : (stubComment language e.handler.toList e.verb.name.toList (onOneLine e.path.toList)
      (docLines e.description.toList)).filter (!isComment ·) = [] := by
    refine List.filter_eq_nil_iff.mpr fun l hl => ?_
    rw [isComment_stubComment language _ _ _ _ l hl]
    exact Bool.false_ne_true
  rw [stub, stubLines_eq, bareStub, List.filter_cons, List.filter_cons, List.filter_append, hcomment,
    List.nil_append]
  rfl

theorem filter_flatMap_stub (language : Language) (es : List Endpoint) :
    (es.flatMap (stub language)).filter (!isComment ·) =
      ((es.map signature).flatMap (bareStub language)).filter (!isComment ·) := by
  induction es with
  | nil => rfl
  | cons e es ih =>
    rw [List.flatMap_cons, List.map_cons, List.flatMap_cons, List.filter_append, List.filter_append,
      filter_stub, ih]

theorem filter_map_signature (language : Language) (es : List Endpoint) :
    (es.map signature).filter (Signature.isUsable language) =
      (es.filter (isUsable language)).map signature :=
  List.filter_map

/-- **The code of a file is that of a skeleton**, which no path, description or parameter is part of. -/
theorem codeLines_render (language : Language) (es : List Endpoint) :
    codeLines (render language es).text =
      (skeleton language ((es.map signature).filter (Signature.isUsable language))).filter
        (!isComment ·) := by
  have hentries : ((es.filter (isUsable language)).map signature).map
      (fun s => mapEntry language s.1.toList) =
        (es.filter (isUsable language)).map fun e => mapEntry language e.handler.toList :=
    List.map_map
  rw [codeLines, splitLines_text, filter_map_signature, skeleton, hentries, fileLines]
  simp only [List.filter_append, filter_flatMap_stub]

theorem handlers_render (language : Language) (es : List Endpoint) :
    (render language es).handlers =
      ((es.map signature).filter (Signature.isUsable language)).map Prod.fst := by
  rw [filter_map_signature, List.map_map]
  rfl

/-! ## §3 Two runs -/

theorem map_signature_eq {es fs : List Endpoint}
    (h : List.Forall₂ (fun e f => e.verb = f.verb ∧ e.handler = f.handler) es fs) :
    es.map signature = fs.map signature := by
  induction h with
  | nil => rfl
  | cons hef _ ih =>
    obtain ⟨hverb, hhandler⟩ := hef
    rw [List.map_cons, List.map_cons, ih, signature, signature, hverb, hhandler]

/-- **No path, description or parameter reaches the code**: two lists of endpoints that agree position by
position on verb and handler give files with the same code, and the same handlers. -/
theorem codeLines_render_congr (language : Language) {es fs : List Endpoint}
    (h : List.Forall₂ (fun e f => e.verb = f.verb ∧ e.handler = f.handler) es fs) :
    codeLines (render language es).text = codeLines (render language fs).text ∧
      (render language es).handlers = (render language fs).handlers := by
  have hsignature : es.map signature = fs.map signature := map_signature_eq h
  constructor
  · rw [codeLines_render, codeLines_render, hsignature]
  · rw [handlers_render, handlers_render, hsignature]

/-- An endpoint whose path, description and parameters try to add a function to the file. -/
def forgingEndpoint : Endpoint where
  verb := .get
  handler := "GetMe"
  path := "/me\nfunc Forged() \x7b\x7d"
  description := "Fetch me.\r\x7d\r\nfunc Forged() \x7b\x7d */\n\"\x7b\x7b name \x7d\x7d"
  uriParameters := [{ key := "\nfunc Forged() \x7b\x7d" }]

/-- An endpoint with the same verb and handler that tries nothing. -/
def honestEndpoint : Endpoint where
  verb := .get
  handler := "GetMe"
  path := "/me"

theorem codeLines_render_congr_forging :
    List.Forall₂ (fun e f => e.verb = f.verb ∧ e.handler = f.handler) [forgingEndpoint]
        [honestEndpoint] ∧
      forgingEndpoint.path ≠ honestEndpoint.path ∧
      (render .go [honestEndpoint]).lines.length < (render .go [forgingEndpoint]).lines.length ∧
      codeLines (render .go [forgingEndpoint]).text = codeLines (render .go [honestEndpoint]).text ∧
      (render .go [forgingEndpoint]).handlers = (render .go [honestEndpoint]).handlers :=
  have hagree : List.Forall₂ (fun e f => e.verb = f.verb ∧ e.handler = f.handler) [forgingEndpoint]
      [honestEndpoint] := .cons ⟨rfl, rfl⟩ .nil
  ⟨hagree, by decide, by decide, codeLines_render_congr .go hagree⟩

end RouteStubs.Source
