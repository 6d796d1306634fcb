import RouteStubs.Proofs.Text.Bytes
import RouteStubs.Proofs.Text.Lines
import RouteStubs.Raml.Document
/-!
The first line of a document, and the span of the error that the header is missing there.

The line is read behind all byte order marks, but the span begins at byte 0 of the document:
`headerMissing_selects_iff` says that it selects the line if no mark is in front of it, and does not otherwise,
unless the line is empty. Behind the marks the line would be selected always (`selects_firstLine`).
-/

namespace RouteStubs

/-! ## §1 Spans that select a text -/

/-- A character of the text begins at this byte, or the text ends there. -/
def Text.IsBoundary (text : List Char) (p : Nat) : Prop :=
  ∃ before after, text = before ++ after ∧ Text.byteLength before = p

namespace Raml

/-- The span selects a text in a document: its bytes are those of the text, it does not reach behind the end of the
document, and it cuts no character. -/
structure Span.Selects (document : List Char) (span : Span) (text : List Char) : Prop where
  bytes : ((Text.bytes document).drop span.offset).take span.length = Text.bytes text
  inside : span.offset + span.length ≤ Text.byteLength document
  begins : Text.IsBoundary document span.offset
  ends : Text.IsBoundary document (span.offset + span.length)

/-- A text is selected where it stands. -/
theorem Span.selects_append (before text after : List Char) :
    Span.Selects (before ++ (text ++ after)) ⟨Text.byteLength before, Text.byteLength text⟩ text where
  bytes := by
    dsimp only
    rw [Text.drop_bytes_append, Text.bytes_append, ← Text.length_bytes text, List.take_left]
  inside := by
    dsimp only
    rw [Text.byteLength_append, Text.byteLength_append]
    omega
  begins := ⟨before, text ++ after, rfl, rfl⟩
  ends := ⟨before ++ text, after, (List.append_assoc ..).symm, Text.byteLength_append ..⟩

/-- A text that a span selects at byte 0 is the start of the document. -/
theorem Span.Selects.starts {document text : List Char} {length : Nat} (h : Span.Selects document ⟨0, length⟩ text) :
    text <+: document := by
  refine Text.prefix_of_bytes_prefix ?_
  rw [← h.bytes]
  exact List.take_prefix _ _

/-! ## §2 The first line -/

/-- The byte order marks in front of a text. -/
def marks (text : List Char) : List Char := text.takeWhile (· == '\ufeff')

theorem marks_append_withoutMarks (text : List Char) : marks text ++ withoutMarks text = text :=
  List.takeWhile_append_dropWhile

theorem firstLine_eq (text : List Char) :
    firstLine text = if '\n' ∈ withoutMarks text then Text.dropReturn (Text.beforeFeed (withoutMarks text))
      else Text.beforeFeed (withoutMarks text) :=
  Text.head?_lines_getD _

/-- The text begins with its first line. -/
theorem firstLine_prefix (text : List Char) : firstLine text <+: withoutMarks text := by
  have hfeed : Text.beforeFeed (withoutMarks text) <+: withoutMarks text := List.takeWhile_prefix _
  rw [firstLine_eq]
  split
  case isTrue => exact (Text.dropReturn_prefix _).trans hfeed
  case isFalse => exact hfeed

/-- **The header is looked for in front of the first line feed.** -/
theorem hasHeader_iff (text : List Char) :
    hasHeader text = true ↔ header <+: Text.trimStart (Text.beforeFeed (withoutMarks text)) := by
  rw [hasHeader, List.isPrefixOf_iff_prefix, firstLine_eq]
  split
  case isTrue => exact Text.prefix_trimStart_dropReturn (by decide) _
  case isFalse => exact Iff.rfl

/-- The first line is selected behind the byte order marks. -/
theorem selects_firstLine (text : List Char) :
    Span.Selects text ⟨Text.byteLength (marks text), Text.byteLength (firstLine text)⟩ (firstLine text) := by
  obtain ⟨after, hafter⟩ := firstLine_prefix text
  have hselects := Span.selects_append (marks text) (firstLine text) after
  rwa [hafter, marks_append_withoutMarks] at hselects

/-- What is left without the marks begins with no mark. -/
theorem head?_withoutMarks (text : List Char) : (withoutMarks text).head? ≠ some '\ufeff' := by
  intro hmark
  have hfirst := List.head?_dropWhile_not (· == '\ufeff') text
  rw [← withoutMarks, hmark] at hfirst
  simp at hfirst

/-- A text that begins with its first line has no mark in front, unless the line is empty. -/
theorem marks_eq_nil_of_starts {text : List Char} (h : firstLine text <+: text) (hne : firstLine text ≠ []) :
    marks text = [] := by
  obtain ⟨c, line, hline⟩ := List.exists_cons_of_ne_nil hne
  obtain ⟨after, hafter⟩ := firstLine_prefix text
  obtain ⟨rest, hrest⟩ := h
  rw [hline, List.cons_append] at hafter hrest
  have hc : c ≠ '\ufeff' := fun hmark => head?_withoutMarks text (by rw [← hafter, hmark]; rfl)
  rw [← hrest, marks, List.takeWhile_cons_of_neg (by simpa using hc)]

/-- At byte 0 the first line is selected if there is no mark in front of it, or nothing to select. -/
theorem selects_firstLine_iff (text : List Char) :
    Span.Selects text ⟨0, Text.byteLength (firstLine text)⟩ (firstLine text) ↔
      marks text = [] ∨ firstLine text = [] := by
  constructor
  · intro h
    by_cases hne : firstLine text = []
    · exact .inr hne
    · exact .inl (marks_eq_nil_of_starts h.starts hne)
  · rintro (hmarks | hempty)
    · have hselects := selects_firstLine text
      rwa [hmarks] at hselects
    · rw [hempty]
      exact Span.selects_append [] [] text

/-! ## §3 The error without a header -/

theorem parse_of_hasHeader_eq_false {text : String} (h : hasHeader text.toList = false) :
    parse text = .error (.invalid .headerMissing (some ⟨0, Text.byteLength (firstLine text.toList)⟩)) := by
  rw [parse, h]
  rfl

/-- **The header is asked for in front of the first line feed, behind all byte order marks and white space. The
error that it is missing has a span inside the document, and this selects the first line exactly if no mark is in
front of it or the line is empty.** A carriage return in front of the line feed is not in the line. -/
theorem headerMissing_selects_iff (text : String) :
    (hasHeader text.toList = true ↔ header <+: Text.trimStart (Text.beforeFeed (withoutMarks text.toList))) ∧
      (firstLine text.toList =
        if '\n' ∈ withoutMarks text.toList then Text.dropReturn (Text.beforeFeed (withoutMarks text.toList))
        else Text.beforeFeed (withoutMarks text.toList)) ∧
      (hasHeader text.toList = false → ∃ span,
        parse text = .error (.invalid .headerMissing (some span)) ∧
          span.offset + span.length ≤ Text.byteLength text.toList ∧
          (span.Selects text.toList (firstLine text.toList) ↔
            marks text.toList = [] ∨ firstLine text.toList = [])) := by
  refine ⟨hasHeader_iff _, firstLine_eq _, fun h => ⟨_, parse_of_hasHeader_eq_false h, ?_, selects_firstLine_iff _⟩⟩
  have hinside := (selects_firstLine text.toList).inside
  dsimp only at hinside ⊢
  omega

/-- Without a mark the whole line is selected. -/
theorem headerMissing_selects_title : hasHeader "title: T\r\n".toList = false ∧
    ∃ span, parse "title: T\r\n" = .error (.invalid .headerMissing (some span)) ∧
      span.Selects "title: T\r\n".toList "title: T".toList := by
  have hheader : hasHeader "title: T\r\n".toList = false := by decide
  have hline : firstLine "title: T\r\n".toList = "title: T".toList := by decide
  obtain ⟨span, hparse, -, hselects⟩ := (headerMissing_selects_iff "title: T\r\n").2.2 hheader
  rw [hline] at hselects
  exact ⟨hheader, span, hparse, hselects.mpr (.inl (by decide))⟩

/-- Behind a mark the span ends before the line does: it selects the mark and `title`. -/
theorem span_behindMark : hasHeader "\ufefftitle: T\n".toList = false ∧
    Text.beforeFeed (withoutMarks "\ufefftitle: T\n".toList) = "title: T".toList ∧
    parse "\ufefftitle: T\n" = .error (.invalid .headerMissing (some ⟨0, 8⟩)) ∧
    ¬ Span.Selects "\ufefftitle: T\n".toList ⟨0, 8⟩ "title: T".toList ∧
    Span.Selects "\ufefftitle: T\n".toList ⟨0, 8⟩ "\ufefftitle".toList := by
  have hheader : hasHeader "\ufefftitle: T\n".toList = false := by decide
  have hlength : Text.byteLength (firstLine "\ufefftitle: T\n".toList) = 8 := by decide
  have hparse := parse_of_hasHeader_eq_false hheader
  rw [hlength] at hparse
  have hline : ¬ "title: T".toList <+: "\ufefftitle: T\n".toList := by decide
  have htext : "\ufefftitle: T\n".toList = [] ++ ("\ufefftitle".toList ++ ": T\n".toList) := by decide
  have hselects := Span.selects_append [] "\ufefftitle".toList ": T\n".toList
  rw [← htext] at hselects
  exact ⟨hheader, by decide, hparse, fun h => hline h.starts, hselects⟩

end Raml

end RouteStubs
