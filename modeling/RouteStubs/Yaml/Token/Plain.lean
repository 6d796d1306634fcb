import RouteStubs.Yaml.Token
/-!
Plain scalars: words without quotes, and the gaps between them.

A plain scalar ends at a comment, at a colon before a gap, at a document marker, at a line that is not
indented further than the collection around it, and within brackets at a bracket or a comma. A gap
between two of its words is folded.
-/

namespace RouteStubs.Yaml

/-- A comma or a bracket. -/
def isFlowIndicator (c : Char) : Bool := c = ',' || c = '[' || c = ']' || c = '{' || c = '}'

/-- The word that a plain scalar goes on with, and whether it stops at a colon that may not stand
there: within brackets, one that a bracket, a comma or a question mark follows. -/
def plainWord (inFlow : Bool) : List Char → List Char × Bool
  | [] => ([], false)
  | c :: rest =>
    if isBlank c || isBreak c then ([], false)
    else if inFlow && c = ':' && rest.head?.any (fun d => isFlowIndicator d || d = '?') then ([], true)
    else if (c = ':' && atGap rest) || (inFlow && isFlowIndicator c) then ([], false)
    else
      let (word, stuck) := plainWord inFlow rest
      (c :: word, stuck)

/-- A plain scalar as read: its folded text, the place after its last word, whether a line ended after
that, and the cursor after the gap behind it. -/
structure PlainScalar where
  text : List Char
  stop : Mark
  brokenAfter : Bool
  cursor : Cursor

/-- Reads words and gaps in turn. The pieces read so far are kept last first; `gap` is the gap in front
of the cursor. -/
def plainWords (inFlow : Bool) (floor : Nat) (start : Mark) :
    Nat → List (List Char) → Mark → Gap → Except SyntaxError PlainScalar
  | 0, pieces, stop, gap => .ok ⟨pieces.reverse.flatten, stop, gap.isBroken, gap.cursor⟩
  | fuel + 1, pieces, stop, gap =>
    let cursor := gap.cursor
    let done : PlainScalar := ⟨pieces.reverse.flatten, stop, gap.isBroken, cursor⟩
    if cursor.atDocumentMarker || cursor.rest.head? = some '#' then .ok done
    else
      let (word, stuck) := plainWord inFlow cursor.rest
      let after := cursor.mark.along word
      if stuck then .error (.within .plainScalar start .colonUnexpected after)
      else if word.isEmpty then .ok done
      else
        let pieces := word :: gap.folded :: pieces
        match scanGap floor false after (cursor.rest.drop word.length) with
        | .error tab => .error (.within .plainScalar start .indentationTabViolates tab)
        | .ok gap =>
          if (gap.blanks.isEmpty && gap.breaks.isEmpty) ||
              (!inFlow && gap.cursor.mark.column < floor) then
            .ok ⟨pieces.reverse.flatten, after, gap.isBroken, gap.cursor⟩
          else plainWords inFlow floor start fuel pieces after gap

/-- Reads the plain scalar at the cursor. Its lines start at column `floor` or after it. -/
def scanPlain (inFlow : Bool) (floor : Nat) (cursor : Cursor) : Except SyntaxError PlainScalar :=
  plainWords inFlow floor cursor.mark (cursor.rest.length + 1) [] cursor.mark ⟨[], [], cursor⟩

end RouteStubs.Yaml
