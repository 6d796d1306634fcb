import RouteStubs.Yaml.Token
/-!
Scalars in quotes.

Within single quotes a quote is written twice. Within double quotes a backslash starts an escape, and
one at the end of a line joins the line with the next. Gaps that reach over a line are folded.
-/

namespace RouteStubs.Yaml

/-! ## §1 Escapes -/

/-- The value of a hexadecimal digit. -/
def hexValue? (c : Char) : Option Nat :=
  if '0' ≤ c && c ≤ '9' then some (c.toNat - 48)
  else if 'A' ≤ c && c ≤ 'F' then some (c.toNat - 55)
  else if 'a' ≤ c && c ≤ 'f' then some (c.toNat - 87)
  else none

/-- The number that the first `n` characters write in hexadecimal, if they all are digits. -/
def hexNumber? : Nat → Nat → List Char → Option Nat
  | 0, value, _ => some value
  | _ + 1, _, [] => none
  | n + 1, value, c :: rest => (hexValue? c).bind fun digit => hexNumber? n (16 * value + digit) rest

/-- What the character after a backslash stands for: a character, or a code of so many digits. -/
inductive Escape where
  | char (c : Char)
  | code (digits : Nat)
  | unknown

/-- The meaning of the character after a backslash. -/
def Escape.ofChar : Char → Escape
  | '0' => .char '\x00'
  | 'a' => .char '\x07'
  | 'b' => .char '\x08'
  | 't' | '\t' => .char '\t'
  | 'n' => .char '\n'
  | 'v' => .char '\x0b'
  | 'f' => .char '\x0c'
  | 'r' => .char '\r'
  | 'e' => .char '\x1b'
  | ' ' => .char ' '
  | '"' => .char '"'
  | '/' => .char '/'
  | '\\' => .char '\\'
  | 'N' => .char '\u0085'
  | '_' => .char '\u00a0'
  | 'L' => .char '\u2028'
  | 'P' => .char '\u2029'
  | 'x' => .code 2
  | 'u' => .code 4
  | 'U' => .code 8
  | _ => .unknown

/-- Reads the escape whose backslash is at the cursor. -/
def scanEscape (start : Mark) (cursor : Cursor) : Except SyntaxError (Char × Cursor) :=
  match cursor.rest with
  | _ :: c :: rest =>
    match Escape.ofChar c with
    | .char c => .ok (c, cursor.skipN 2)
    | .code digits =>
      let after := cursor.skipN 2
      match hexNumber? digits 0 rest with
      | none => .error (.within .quotedEscape start .escapeDigitMissing after.mark)
      | some code =>
        if (0xD800 ≤ code && code ≤ 0xDFFF) || 0x10FFFF < code then
          .error (.within .quotedEscape start .escapeNoCharacter after.mark)
        else .ok (Char.ofNat code, after.skipN digits)
    | .unknown => .error (.within .quotedEscape start .escapeUnknown cursor.mark)
  | _ => .error (.within .quotedEscape start .escapeUnknown cursor.mark)

/-! ## §2 Scalars -/

/-- Reads a gap at the cursor, in which tabs are free. After a joined line (`broken`) the gap's line
breaks are all kept. -/
def quotedGap (broken : Bool) (cursor : Cursor) : List Char × Cursor :=
  match scanGap 0 broken cursor.mark cursor.rest with
  | .ok gap => (if broken then gap.breaks.flatten else gap.folded, gap.cursor)
  | .error _ => ([], cursor)

/-- Reads up to the closing quote; the pieces read so far are kept last first. -/
def quotedPieces (quote : Char) (start : Mark) :
    Nat → List (List Char) → Cursor → Except SyntaxError (List Char × Cursor)
  | 0, _, cursor => .error (.within .quotedScalar start .quoteUnended cursor.mark)
  | fuel + 1, pieces, cursor =>
    if cursor.atDocumentMarker then
      .error (.within .quotedScalar start .quoteDocumentMarker cursor.mark)
    else
      match cursor.rest with
      | [] => .error (.within .quotedScalar start .quoteUnended cursor.mark)
      | c :: rest =>
        if c = quote then
          if quote = '\'' && rest.head? = some '\'' then
            quotedPieces quote start fuel (['\''] :: pieces) (cursor.skipN 2)
          else .ok (pieces.reverse.flatten, cursor.skip)
        else if c = '\\' && quote = '"' then
          if rest.head?.any isBreak then
            let (piece, cursor) := quotedGap true cursor.skip.skipBreak
            quotedPieces quote start fuel (piece :: pieces) cursor
          else
            match scanEscape start cursor with
            | .error e => .error e
            | .ok (c, cursor) => quotedPieces quote start fuel ([c] :: pieces) cursor
        else if isBlank c || isBreak c then
          let (piece, cursor) := quotedGap false cursor
          quotedPieces quote start fuel (piece :: pieces) cursor
        else quotedPieces quote start fuel ([c] :: pieces) cursor.skip

/-- Reads the scalar whose opening quote is at the cursor: its text and the cursor after it. -/
def scanQuoted (quote : Char) (cursor : Cursor) : Except SyntaxError (List Char × Cursor) :=
  quotedPieces quote cursor.mark (cursor.rest.length + 1) [] cursor.skip

end RouteStubs.Yaml
