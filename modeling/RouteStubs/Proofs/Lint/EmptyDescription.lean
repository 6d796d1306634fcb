import RouteStubs.Lint
import RouteStubs.Proofs.Source.CodeLines
import RouteStubs.Proofs.Source.DocLines
/-!
Notes about endpoints without a description, and the stubs that say nothing but what they handle.

The lint looks at a description as it is given, and the stub has the lines that the description becomes. Those are
none if no character of it shows (`isBare_iff`), and a control character does not show even where it is no white
space. So a note is always about a bare stub, but not every bare stub has one: `check_emptyDescription_bare` says
which do not, and `silent_bareStub` is one of them.
-/

namespace RouteStubs

namespace Source

/-! ## §1 The description in a stub -/

/-- The lines of a stub that hold the description: its comment lines behind the first. -/
def descriptionLines (stub : List Line) : List Line := (stub.filter isComment).tail

theorem filter_functionLines (language : Language) (name verb : Line) :
    (functionLines language name verb).filter isComment = [] := by
  cases language <;> rfl

/-- The description of an endpoint is read back from its stub, in lines and behind the mark of the language. -/
theorem descriptionLines_stub (language : Language) (e : Endpoint) :
    descriptionLines (stub language e) =
      (docLines e.description.toList).map (commentLine (docMark language)) := by
  have hcomment := isComment_stubComment language e.handler.toList e.verb.name.toList (onOneLine e.path.toList)
    (docLines e.description.toList)
  have hempty : ¬ isComment [] = true := by decide
  rw [descriptionLines, stub, stubLines_eq, List.filter_cons_of_neg hempty, List.filter_append,
    List.filter_eq_self.mpr hcomment, filter_functionLines, List.append_nil, stubComment, List.tail_cons]

/-- The stub of the endpoint has no lines for a description. -/
def isBare (language : Language) (e : Endpoint) : Bool := (descriptionLines (stub language e)).isEmpty

theorem isBare_iff_docLines (language : Language) (e : Endpoint) :
    isBare language e = true ↔ docLines e.description.toList = [] := by
  simp [isBare, descriptionLines_stub]

/-- A stub is bare if the description is made of white space and control characters. -/
theorem isBare_iff (language : Language) (e : Endpoint) :
    isBare language e = true ↔
      ∀ c ∈ e.description.toList, Text.isSpace c = true ∨ Text.isControl c = true := by
  rw [isBare_iff_docLines, docLines_eq_nil_iff]
  refine forall₂_congr fun c _ => ?_
  simp only [isVisible, Bool.and_eq_false_iff, Bool.not_eq_false']
  exact or_comm

end Source

namespace Lint

open Source

/-! ## §2 Notes and bare stubs -/

theorem isUndescribed_iff (e : Endpoint) :
    isUndescribed e = true ↔ ∀ c ∈ e.description.toList, Text.isSpace c = true := by
  simp [isUndescribed, Text.trim_eq_nil_iff]

theorem isBare_of_isUndescribed (language : Language) {e : Endpoint} (h : isUndescribed e = true) :
    isBare language e = true := by
  rw [isUndescribed_iff] at h
  rw [isBare_iff]
  exact fun c hc => .inl (h c hc)

theorem filter_isBare (language : Language) (es : List Endpoint) :
    (es.filter (isBare language)).filter isUndescribed = es.filter isUndescribed := by
  rw [List.filter_filter]
  refine List.filter_congr fun e _ => ?_
  cases hnote : isUndescribed e with
  | true => simp [isBare_of_isUndescribed language hnote]
  | false => simp

/-- The diagnostic is the note about an endpoint: it names the handler, and it is located at the verb and path. -/
structure NotesBare (e : Endpoint) (note : Diagnostic) : Prop where
  severity : note.severity = .info
  lint : note.lint = "empty-description"
  message : note.message = "handler '" ++ e.handler ++ "' has no description"
  location : note.location = some (e.verb.name ++ " " ++ e.path)

theorem notesBare_iff {e : Endpoint} {note : Diagnostic} : NotesBare e note ↔ undescribed e = note := by
  constructor
  · obtain ⟨severity, lint, message, location⟩ := note
    rintro ⟨rfl, rfl, rfl, rfl⟩
    rfl
  · rintro rfl
    exact ⟨rfl, rfl, rfl, rfl⟩

theorem forall₂_notesBare_iff {es : List Endpoint} {notes : List Diagnostic} :
    List.Forall₂ NotesBare es notes ↔ notes = es.map undescribed := by
  rw [eq_comm, ← List.forall₂_eq_eq_eq, List.forall₂_map_left_iff]
  simp only [← notesBare_iff]

/-- **Notes and bare stubs.** The lint notes endpoints whose stubs are bare, each once, at its verb and path and in
the order of the list: those whose descriptions are white space only. A stub is bare if its description has no lines,
that is, if it is made of white space and control characters. So the notes are about all the bare stubs exactly if
every control character in the description of one is white space. -/
theorem check_emptyDescription_bare (language : Language) (es : List Endpoint) :
    let bare := es.filter (isBare language)
    let notes := check es .emptyDescription
    List.Forall₂ NotesBare (bare.filter fun e => e.description.toList.all Text.isSpace) notes ∧
      (∀ e, (isBare language e = true ↔ docLines e.description.toList = []) ∧
        (isBare language e = true ↔
          ∀ c ∈ e.description.toList, Text.isSpace c = true ∨ Text.isControl c = true)) ∧
      (List.Forall₂ NotesBare bare notes ↔
        ∀ e ∈ bare, ∀ c ∈ e.description.toList, Text.isControl c = true → Text.isSpace c = true) := by
  intro bare notes
  have hnotes : notes = (bare.filter isUndescribed).map undescribed := by
    rw [filter_isBare]
    rfl
  have hall : isUndescribed = fun e : Endpoint => e.description.toList.all Text.isSpace := by
    funext e
    rw [Bool.eq_iff_iff, isUndescribed_iff, List.all_eq_true]
  simp only [forall₂_notesBare_iff]
  refine ⟨?notes, fun e => ⟨isBare_iff_docLines language e, isBare_iff language e⟩, ?all⟩
  case notes => rw [hnotes, hall]
  case all =>
    have hcount : notes = bare.map undescribed ↔ ∀ e ∈ bare, isUndescribed e = true := by
      constructor
      · intro heq
        have hlength := congrArg List.length heq
        rw [hnotes, List.length_map, List.length_map] at hlength
        exact List.length_filter_eq_length_iff.mp hlength
      · intro hundescribed
        rw [hnotes, List.filter_eq_self.mpr hundescribed]
    rw [hcount]
    refine forall₂_congr fun e he => ?_
    rw [isUndescribed_iff]
    have hbare := (isBare_iff language e).mp (List.mem_filter.mp he).2
    constructor
    · exact fun hspace c hc _ => hspace c hc
    · exact fun hcontrol c hc => (hbare c hc).elim id (hcontrol c hc)

/-- An endpoint whose description is one control character that is no white space. -/
def silentEndpoint : Endpoint where
  verb := .get
  handler := "GetA"
  path := "/a"
  description := "\x07"

/-- Its stub is bare in both languages, and there is no note about it. -/
theorem silent_bareStub :
    descriptionLines (stub .go silentEndpoint) = [] ∧ descriptionLines (stub .rust silentEndpoint) = [] ∧
      check [silentEndpoint] .emptyDescription = [] := by
  decide

end Lint

end RouteStubs
