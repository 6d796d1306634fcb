import RouteStubs.Proofs.Yaml.EventPlaces
import RouteStubs.Raml.Document
/-!
The span of the error that a text has no value.

The reader of texts reports a place in three counts: bytes from the start, a line, and a character in it. The span is
made of the first alone, and what a person sees is made of the other two. `parse_error_span` says that they agree: the
span starts with the byte at which the line and column stand, in the whole text, whatever its line breaks and the sizes
of its characters are, so it never starts within a character.

It is one byte long, whatever stands there. So it ends inside the text exactly if anything stands there; an error that
is noticed at the end of the text has a span that reaches behind it (`parse_error_span_unclosedBracket`).
-/

namespace RouteStubs

namespace Yaml

/-! ## §1 The place at a line and a column -/

/-- The text in front of the place at a line and a column, both counted from zero, and the text behind it; `line` and
`column` are those of the start. A line break of two characters has no place within it. The line after a last line that
has no line break starts at the end of the text, as that line's end does. -/
def splitAtPlace (place : Nat × Nat) (line column : Nat) : List Char → Option (List Char × List Char)
  | [] => if place = (line, column) ∨ column ≠ 0 ∧ place = (line + 1, 0) then some ([], []) else none
  | '\r' :: '\n' :: rest =>
    if place = (line, column) then some ([], '\r' :: '\n' :: rest)
    else (splitAtPlace place (line + 1) 0 rest).map fun (before, after) => ('\r' :: '\n' :: before, after)
  | c :: rest =>
    if place = (line, column) then some ([], c :: rest)
    else
      let next := if isBreak c then splitAtPlace place (line + 1) 0 rest else splitAtPlace place line (column + 1) rest
      next.map fun (before, after) => (c :: before, after)

theorem splitAtPlace_here (line column : Nat) (text : List Char) :
    splitAtPlace (line, column) line column text = some ([], text) := by
  rw [splitAtPlace.eq_def]
  split <;> simp

/-- The place does not lie before the mark. -/
def Mark.NotBehind (m : Mark) (place : Nat × Nat) : Prop :=
  m.line < place.1 ∨ m.line = place.1 ∧ m.column ≤ place.2

theorem Mark.NotBehind.ne_of_lt {m : Mark} {place : Nat × Nat} (h : m.NotBehind place) {line column : Nat}
    (hlt : line < m.line ∨ line = m.line ∧ column < m.column) : place ≠ (line, column) := by
  rintro rfl
  simp only [Mark.NotBehind] at h
  omega

namespace Cursor

variable {c c' c'' : Cursor}

theorem LeadsTo.notBehind {place : Nat × Nat} (h : c.LeadsTo c') (hplace : c'.mark.NotBehind place) :
    c.mark.NotBehind place := by
  induction h with
  | refl => exact hplace
  | char _ _ ih | pair _ ih | single _ _ _ ih =>
    have hnext := ih hplace
    simp only [Mark.NotBehind, Mark.next, Mark.nextLine] at hnext ⊢
    omega

/-- Between two cursors stands a text that is split off in front of the place. -/
def SplitsOff (place : Nat × Nat) (c c' : Cursor) : Prop :=
  ∃ before, c.rest = before ++ c'.rest ∧ c'.mark.index = c.mark.index + Text.byteLength before ∧
    splitAtPlace place c.mark.line c.mark.column c.rest =
      (splitAtPlace place c'.mark.line c'.mark.column c'.rest).map fun split => (before ++ split.1, split.2)

theorem SplitsOff.refl (place : Nat × Nat) (c : Cursor) : SplitsOff place c c := ⟨[], rfl, rfl, by simp⟩

theorem SplitsOff.trans {place : Nat × Nat} (h : SplitsOff place c c') (h' : SplitsOff place c' c'') :
    SplitsOff place c c'' := by
  obtain ⟨before, hrest, hindex, hsplit⟩ := h
  obtain ⟨before', hrest', hindex', hsplit'⟩ := h'
  refine ⟨before ++ before', ?_, ?_, ?_⟩
  · rw [hrest, hrest', List.append_assoc]
  · rw [hindex', hindex, Text.byteLength_append, Nat.add_assoc]
  · rw [hsplit, hsplit', Option.map_map]
    simp only [Function.comp_def, List.append_assoc]

theorem splitsOff_pair {place : Nat × Nat} {mark : Mark} (hne : place ≠ (mark.line, mark.column)) (rest : List Char) :
    SplitsOff place ⟨'\r' :: '\n' :: rest, mark⟩ ⟨rest, mark.nextLine 2⟩ := by
  refine ⟨['\r', '\n'], rfl, rfl, ?_⟩
  dsimp only
  rw [splitAtPlace, if_neg hne]
  rfl

theorem splitsOff_char {place : Nat × Nat} {mark : Mark} (hne : place ≠ (mark.line, mark.column)) {x : Char}
    (hx : isBreak x = false) (rest : List Char) : SplitsOff place ⟨x :: rest, mark⟩ ⟨rest, mark.next x⟩ := by
  refine ⟨[x], rfl, rfl, ?_⟩
  dsimp only
  rw [splitAtPlace, if_neg hne, hx]
  · rfl
  · rintro _ rfl _
    simp [isBreak] at hx

theorem splitsOff_single {place : Nat × Nat} {mark : Mark} (hne : place ≠ (mark.line, mark.column)) {x : Char}
    (hx : isBreak x = true) {rest : List Char} (hpair : x = '\r' → rest.head? ≠ some '\n') :
    SplitsOff place ⟨x :: rest, mark⟩ ⟨rest, mark.nextLine x.utf8Size⟩ := by
  refine ⟨[x], rfl, rfl, ?_⟩
  dsimp only
  rw [splitAtPlace, if_neg hne, hx]
  · rfl
  · rintro _ hreturn rfl
    exact hpair hreturn rfl

/-- The text up to a cursor is split off in front of every place from there on. The induction is on the steps of
reading: each leads to a line or column behind the one before, so none of them starts at the place. -/
theorem LeadsTo.splitsOff (h : c.LeadsTo c') (place : Nat × Nat) (hplace : c'.mark.NotBehind place) :
    SplitsOff place c c' := by
  induction h with
  | refl c => exact .refl place c
  | @char x rest mark c hx h ih =>
    have hne : place ≠ (mark.line, mark.column) := (h.notBehind hplace).ne_of_lt (.inr ⟨rfl, Nat.lt_succ_self _⟩)
    exact (splitsOff_char hne hx rest).trans (ih hplace)
  | @pair rest mark c h ih =>
    have hne : place ≠ (mark.line, mark.column) := (h.notBehind hplace).ne_of_lt (.inl (Nat.lt_succ_self _))
    exact (splitsOff_pair hne rest).trans (ih hplace)
  | @single x rest mark c hx hpair h ih =>
    have hne : place ≠ (mark.line, mark.column) := (h.notBehind hplace).ne_of_lt (.inl (Nat.lt_succ_self _))
    exact (splitsOff_single hne hx hpair).trans (ih hplace)

/-- A place of a text is where its line and column say, and its index counts the bytes in front of it. -/
theorem Names.splitAtPlace_eq {text : List Char} {m : Mark} (h : (Cursor.ofText text).Names m) :
    ∃ before after, splitAtPlace (m.line, m.column) 0 0 text = some (before, after) ∧ text = before ++ after ∧
      m.index = Text.byteLength before := by
  rcases h with ⟨c, hc, rfl⟩ | ⟨last, hlast, hcolumn, rfl⟩
  · obtain ⟨before, hrest, hindex, hsplit⟩ :=
      hc.splitsOff (c.mark.line, c.mark.column) (.inr ⟨rfl, le_rfl⟩)
    refine ⟨before, c.rest, hsplit.trans ?_, hrest, hindex.trans (Nat.zero_add _)⟩
    rw [splitAtPlace_here, Option.map_some, List.append_nil]
  · obtain ⟨before, hrest, hindex, hsplit⟩ :=
      hlast.splitsOff (last.line + 1, 0) (.inl (Nat.lt_succ_self _))
    refine ⟨before, [], hsplit.trans ?_, hrest, hindex.trans (Nat.zero_add _)⟩
    rw [splitAtPlace, if_pos (.inr ⟨hcolumn, rfl⟩), Option.map_some, List.append_nil]

end Cursor
end Yaml

namespace Raml

open Yaml

/-! ## §2 The span of the error -/

theorem parse_eq_unparsed {text : String} {cause : ReadError} (hheader : hasHeader text.toList = true)
    (hread : Value.ofText text.toList = .error cause) : parse text = .error (.unparsed cause) := by
  simp [parse, hheader, hread]

/-- **The span of the error that a text has no value starts where the error's line and column say**, in bytes of the
text and between two characters. It ends inside the text exactly if the place is not the end of the text. -/
theorem parse_error_span {text : String} {cause : ReadError} {mark : Mark} (hheader : hasHeader text.toList = true)
    (hread : Value.ofText text.toList = .error cause) (hmark : cause.mark? = some mark) :
    parse text = .error (.unparsed cause) ∧
      ∃ before after, splitAtPlace (mark.line, mark.column) 0 0 text.toList = some (before, after) ∧
        text.toList = before ++ after ∧ (Error.unparsed cause).report.span = some ⟨Text.byteLength before, 1⟩ ∧
        (Text.byteLength before + 1 ≤ Text.byteLength text.toList ↔ after ≠ []) := by
  obtain ⟨before, after, hsplit, htext, hindex⟩ := (Value.ofText_error_placed hread mark hmark).splitAtPlace_eq
  refine ⟨parse_eq_unparsed hheader hread, before, after, hsplit, htext, ?_, ?_⟩
  · rw [Error.report, Report.parse, hmark, ← hindex]
    rfl
  · rw [htext, Text.byteLength_append]
    cases after with
    | nil => simp
    | cons c rest =>
      have hsize := c.utf8Size_pos
      simp only [Text.byteLength_cons, ne_eq, reduceCtorEq, not_false_eq_true, iff_true]
      omega

set_option maxRecDepth 20000 in
/-- A bracket that closes nothing, behind a character of two bytes: column 3 of its line starts at byte 15. -/
theorem parse_error_span_closingBracket :
    hasHeader "#%RAML 0.8\nü: ]\n".toList = true ∧
      Value.ofText "#%RAML 0.8\nü: ]\n".toList =
        .error (.form (.within .blockNode ⟨15, 1, 3⟩ .nodeMissing ⟨15, 1, 3⟩)) ∧
      ∃ before after, splitAtPlace (1, 3) 0 0 "#%RAML 0.8\nü: ]\n".toList = some (before, after) ∧
        (Error.unparsed (.form (.within .blockNode ⟨15, 1, 3⟩ .nodeMissing ⟨15, 1, 3⟩))).report.span =
          some ⟨Text.byteLength before, 1⟩ ∧ after = "]\n".toList := by
  have hheader : hasHeader "#%RAML 0.8\nü: ]\n".toList = true := by decide +kernel
  have hread : Value.ofText "#%RAML 0.8\nü: ]\n".toList =
    .error (.form (.within .blockNode ⟨15, 1, 3⟩ .nodeMissing ⟨15, 1, 3⟩)) := rfl
  obtain ⟨-, before, after, hsplit, -, hspan, -⟩ := parse_error_span hheader hread rfl
  have hafter : splitAtPlace (1, 3) 0 0 "#%RAML 0.8\nü: ]\n".toList =
    some ("#%RAML 0.8\nü: ".toList, "]\n".toList) := rfl
  have hpieces := Option.some.inj (hsplit.symm.trans hafter)
  exact ⟨hheader, hread, before, after, hsplit, hspan, (Prod.mk.inj hpieces).2⟩

set_option maxRecDepth 20000 in
/-- A bracket that is not closed is missed at the end of the text, and the span of the error reaches behind it. -/
theorem parse_error_span_unclosedBracket :
    ∃ cause mark span, hasHeader "#%RAML 0.8\ntitle: [unclosed\n".toList = true ∧
      Value.ofText "#%RAML 0.8\ntitle: [unclosed\n".toList = .error cause ∧ cause.mark? = some mark ∧
      parse "#%RAML 0.8\ntitle: [unclosed\n" = .error (.unparsed cause) ∧
      (Error.unparsed cause).report.span = some span ∧
      Text.byteLength "#%RAML 0.8\ntitle: [unclosed\n".toList < span.offset + span.length := by
  have hheader : hasHeader "#%RAML 0.8\ntitle: [unclosed\n".toList = true := by decide +kernel
  have hread : Value.ofText "#%RAML 0.8\ntitle: [unclosed\n".toList =
    .error (.form (.within .flowSequence ⟨18, 1, 7⟩ .flowSequenceSeparator ⟨28, 2, 0⟩)) := rfl
  refine ⟨_, ⟨28, 2, 0⟩, ⟨28, 1⟩, hheader, hread, rfl, parse_eq_unparsed hheader hread, rfl, ?_⟩
  decide

end Raml
end RouteStubs
