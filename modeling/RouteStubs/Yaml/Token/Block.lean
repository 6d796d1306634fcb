import RouteStubs.Yaml.Token
/-!
Block scalars: lines below an indicator, kept as they are (`|`) or folded (`>`).

After the indicator may stand a digit, the indentation of the lines, and a sign, what becomes of the
line breaks at the end: `-` drops them, `+` keeps them all, and without a sign the first one is kept.
-/

namespace RouteStubs.Yaml

/-! ## §1 The line of the indicator -/

/-- What becomes of the line breaks at the end of a block scalar. -/
inductive Chomping where
  | strip
  | clip
  | keep
  deriving DecidableEq, Repr

/-- The sign at the cursor. -/
def scanChomping (cursor : Cursor) : Option Chomping × Cursor :=
  match cursor.rest with
  | '+' :: _ => (some .keep, cursor.skip)
  | '-' :: _ => (some .strip, cursor.skip)
  | _ => (none, cursor)

/-- The digit at the cursor, which may not be zero. -/
def scanIncrement (start : Mark) (cursor : Cursor) : Except SyntaxError (Option Nat × Cursor) :=
  match cursor.rest with
  | c :: _ =>
    if c = '0' then .error (.within .blockScalar start .indentationZero cursor.mark)
    else if '1' ≤ c && c ≤ '9' then .ok (some (c.toNat - 48), cursor.skip)
    else .ok (none, cursor)
  | [] => .ok (none, cursor)

/-- The sign and the digit, in either order. -/
def scanBlockHeader (start : Mark) (cursor : Cursor) :
    Except SyntaxError (Chomping × Option Nat × Cursor) := do
  match scanChomping cursor with
  | (some chomping, cursor) =>
    let (increment, cursor) ← scanIncrement start cursor
    return (chomping, increment, cursor)
  | (none, cursor) =>
    match ← scanIncrement start cursor with
    | (some increment, cursor) =>
      let (chomping, cursor) := scanChomping cursor
      return (chomping.getD .clip, some increment, cursor)
    | (none, cursor) => return (.clip, none, cursor)

/-! ## §2 Indentation -/

/-- The indentation spaces and empty lines in front of a line. -/
structure Indentation where
  breaks : List (List Char)
  /-- The furthest column reached by spaces alone. -/
  deepest : Nat
  cursor : Cursor

/-- Reads indentation up to column `limit`, or all spaces if there is no limit yet. A tab in it is
refused, and the result is where it stands. -/
def scanIndentation (limit : Option Nat) : Nat → Mark → List Char → Except Mark Indentation
  | deepest, mark, [] => .ok ⟨[], max deepest mark.column, ⟨[], mark⟩⟩
  | deepest, mark, '\r' :: '\n' :: rest =>
    (scanIndentation limit (max deepest mark.column) (mark.nextLine 2) rest).map
      fun i => { i with breaks := ['\n'] :: i.breaks }
  | deepest, mark, c :: rest =>
    let open? := limit.all (mark.column < ·)
    if open? && c = ' ' then scanIndentation limit deepest (mark.next c) rest
    else if open? && c = '\t' then .error mark
    else if isBreak c then
      (scanIndentation limit (max deepest mark.column) (mark.nextLine c.utf8Size) rest).map
        fun i => { i with breaks := keptBreak c :: i.breaks }
    else .ok ⟨[], max deepest mark.column, ⟨c :: rest, mark⟩⟩

/-! ## §3 Lines -/

/-- The lines of a block scalar read so far: their text as pieces, last first, the break after the
last line, the empty lines after that, and whether the last line starts with a blank. -/
structure BlockLines where
  pieces : List (List Char)
  lastBreak : List Char
  emptyLines : List (List Char)
  blankStart : Bool

/-- What stands between the last line and a next one. Folding turns a line feed into a space, or drops
it before empty lines, unless one of the two lines starts with a blank. -/
def BlockLines.joint (lines : BlockLines) (folded blankStart : Bool) : List Char :=
  if folded && lines.lastBreak = ['\n'] && !lines.blankStart && !blankStart then
    if lines.emptyLines.isEmpty then [' '] else lines.emptyLines.flatten
  else lines.lastBreak ++ lines.emptyLines.flatten

/-- Reads the lines that are indented to column `indent`, starting at the first. -/
def blockLines (folded : Bool) (start : Mark) (indent : Nat) :
    Nat → BlockLines → Cursor → Except SyntaxError (BlockLines × Cursor)
  | 0, lines, cursor => .ok (lines, cursor)
  | fuel + 1, lines, cursor =>
    if cursor.mark.column != indent || cursor.rest.isEmpty then .ok (lines, cursor)
    else
      let blankStart := cursor.rest.head?.any isBlank
      let joint := lines.joint folded blankStart
      let (line, cursor) := cursor.takeWhile (fun c => !isBreak c)
      let (lastBreak, cursor) := cursor.readBreak
      match scanIndentation (some indent) 0 cursor.mark cursor.rest with
      | .error tab => .error (.within .blockScalar start .indentationTab tab)
      | .ok indentation =>
        blockLines folded start indent fuel
          ⟨line :: joint :: lines.pieces, lastBreak, indentation.breaks, blankStart⟩
          indentation.cursor

/-- The text of the lines, with the line breaks at the end that the sign asks for. -/
def BlockLines.text (lines : BlockLines) (chomping : Chomping) : List Char :=
  lines.pieces.reverse.flatten ++
    match chomping with
    | .strip => []
    | .clip => lines.lastBreak
    | .keep => lines.lastBreak ++ lines.emptyLines.flatten

/-- Reads the block scalar whose indicator is at the cursor, within a collection at column `parent`.
Without a digit its indentation is that of its first line, or of the deepest empty line before it, and
at least one more than the collection's. -/
def scanBlock (folded : Bool) (parent : Int) (cursor : Cursor) :
    Except SyntaxError (List Char × Cursor) := do
  let start := cursor.mark
  let (chomping, increment, cursor) ← scanBlockHeader start cursor.skip
  let cursor := cursor.skipBlanks.skipComment
  if !atLineEnd cursor.rest then
    throw (.within .blockScalar start .lineEndMissing cursor.mark)
  let cursor := cursor.skipBreak
  let given := increment.map fun n => (if 0 ≤ parent then parent.toNat else 0) + n
  match scanIndentation given 0 cursor.mark cursor.rest with
  | .error tab => throw (.within .blockScalar start .indentationTab tab)
  | .ok indentation =>
    let indent := given.getD (max (max indentation.deepest (parent + 1).toNat) 1)
    let (lines, cursor) ← blockLines folded start indent (cursor.rest.length + 1)
      ⟨[], [], indentation.breaks, false⟩ indentation.cursor
    return (lines.text chomping, cursor)

end RouteStubs.Yaml
