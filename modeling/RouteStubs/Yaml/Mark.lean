import RouteStubs.Text.Utf8
/-!
Places in a document, and reading a document from left to right.

A `Mark` counts bytes, lines and columns from zero; a column is a character. A `Cursor` is a mark
together with the text after it. Line breaks are the carriage return, the line feed, the two in this
order, and the next-line, line-separator and paragraph-separator characters.
-/

namespace RouteStubs.Yaml

/-! ## §1 Character classes -/

/-- A space or a tab. -/
def isBlank (c : Char) : Bool := c = ' ' || c = '\t'

/-- A character that can end a line. -/
def isBreak (c : Char) : Bool :=
  c = '\n' || c = '\r' || c = '\u0085' || c = '\u2028' || c = '\u2029'

/-- The text starts with a blank or a line break, or is at its end. -/
def atGap : List Char → Bool
  | [] => true
  | c :: _ => isBlank c || isBreak c

/-- The text starts with a line break, or is at its end. -/
def atLineEnd : List Char → Bool
  | [] => true
  | c :: _ => isBreak c

/-- Letters, digits, `_` and `-`: the characters of anchors, directives and tag handles. -/
def isWordChar (c : Char) : Bool :=
  ('0' ≤ c && c ≤ '9') || ('A' ≤ c && c ≤ 'Z') || ('a' ≤ c && c ≤ 'z') || c = '_' || c = '-'

/-- A line break as it is kept in a value: all but the two separators become a line feed. -/
def keptBreak (c : Char) : List Char :=
  if c = '\u2028' || c = '\u2029' then [c] else ['\n']

/-! ## §2 Marks -/

/-- A place in a document, counted from zero: bytes from the start, line, and character in it. -/
structure Mark where
  index : Nat
  line : Nat
  column : Nat
  deriving DecidableEq, Repr, Inhabited

namespace Mark

/-- The start of a document. -/
def zero : Mark := ⟨0, 0, 0⟩

/-- The place after a character that stays on its line. -/
def next (m : Mark) (c : Char) : Mark := ⟨m.index + c.utf8Size, m.line, m.column + 1⟩

/-- The place after characters that stay on their line. -/
def along (m : Mark) (cs : List Char) : Mark :=
  ⟨m.index + Text.byteLength cs, m.line, m.column + cs.length⟩

/-- The start of the next line, after a line break of `bytes` bytes. -/
def nextLine (m : Mark) (bytes : Nat) : Mark := ⟨m.index + bytes, m.line + 1, 0⟩

/-- The start of the document's first line, where messages name no place. -/
def isStart (m : Mark) : Bool := m.line == 0 && m.column == 0

end Mark

/-! ## §3 Cursors -/

/-- A place in a document with the text that follows it. -/
structure Cursor where
  rest : List Char
  mark : Mark

namespace Cursor

/-- The start of a text. -/
def ofText (text : List Char) : Cursor := ⟨text, .zero⟩

/-- Past one character of the line. -/
def skip (c : Cursor) : Cursor :=
  match c.rest with
  | [] => c
  | head :: rest => ⟨rest, c.mark.next head⟩

/-- Past `n` characters of the line. -/
def skipN : Nat → Cursor → Cursor
  | 0, c => c
  | n + 1, c => skipN n c.skip

/-- The longest run of characters in a class, none of them a line break, and the place after it. -/
def takeWhile (p : Char → Bool) (c : Cursor) : List Char × Cursor :=
  let taken := c.rest.takeWhile p
  (taken, ⟨c.rest.dropWhile p, c.mark.along taken⟩)

/-- Past the longest run of characters in a class. -/
def dropWhile (p : Char → Bool) (c : Cursor) : Cursor := (c.takeWhile p).2

/-- Past the blanks. -/
def skipBlanks (c : Cursor) : Cursor := c.dropWhile isBlank

/-- Past a comment, up to the end of the line. -/
def skipComment (c : Cursor) : Cursor :=
  if c.rest.head? = some '#' then c.dropWhile (fun x => !isBreak x) else c

/-- Past a line break, with the break as it is kept in a value. Nothing at any other character. -/
def readBreak (c : Cursor) : List Char × Cursor :=
  match c.rest with
  | '\r' :: '\n' :: rest => (['\n'], ⟨rest, c.mark.nextLine 2⟩)
  | head :: rest =>
    if isBreak head then (keptBreak head, ⟨rest, c.mark.nextLine head.utf8Size⟩) else ([], c)
  | [] => ([], c)

/-- Past a line break. -/
def skipBreak (c : Cursor) : Cursor := c.readBreak.2

/-- At the start of a line that begins with `---` or `...` and then a gap. -/
def atDocumentMarker (c : Cursor) : Bool :=
  c.mark.column == 0 &&
    match c.rest with
    | '-' :: '-' :: '-' :: rest | '.' :: '.' :: '.' :: rest => atGap rest
    | _ => false

end Cursor

/-! ## §4 Gaps between words -/

/-- The blanks and line breaks between two words of a scalar. -/
structure Gap where
  /-- The blanks before the first line break. -/
  blanks : List Char
  /-- The line breaks, each as it is kept. -/
  breaks : List (List Char)
  cursor : Cursor

namespace Gap

/-- What a gap between two words becomes: its blanks on one line, a space for one line break, and one
line break less than there are otherwise. A separator in front is kept. -/
def folded (g : Gap) : List Char :=
  match g.breaks with
  | [] => g.blanks
  | [first] => if first = ['\n'] then [' '] else first
  | first :: others => if first = ['\n'] then others.flatten else first ++ others.flatten

/-- The gap reaches over a line. -/
def isBroken (g : Gap) : Bool := !g.breaks.isEmpty

end Gap

/-- Reads a gap. Once a line has ended (`broken`), a tab left of column `floor` is refused, and the
result is where it stands. -/
def scanGap (floor : Nat) : Bool → Mark → List Char → Except Mark Gap
  | _, mark, [] => .ok ⟨[], [], ⟨[], mark⟩⟩
  | _, mark, '\r' :: '\n' :: rest =>
    (scanGap floor true (mark.nextLine 2) rest).map fun g => { g with breaks := ['\n'] :: g.breaks }
  | broken, mark, c :: rest =>
    if isBlank c then
      if broken then
        if c = '\t' && mark.column < floor then .error mark
        else scanGap floor true (mark.next c) rest
      else (scanGap floor false (mark.next c) rest).map fun g => { g with blanks := c :: g.blanks }
    else if isBreak c then
      (scanGap floor true (mark.nextLine c.utf8Size) rest).map
        fun g => { g with breaks := keptBreak c :: g.breaks }
    else .ok ⟨[], [], ⟨c :: rest, mark⟩⟩

end RouteStubs.Yaml
