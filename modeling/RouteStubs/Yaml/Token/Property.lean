import RouteStubs.Yaml.Token.Quoted
/-!
Anchors, aliases and tags in front of a node, and the directives in front of a document.

A tag is a handle and a suffix. `!<text>` and a lone `!` have the empty handle, `!name!suffix` has the
handle `!name!`, and any other tag has the handle `!`.
-/

namespace RouteStubs.Yaml

/-! ## §1 Anchors and aliases -/

/-- The characters that may follow the name of an anchor or alias, besides a gap. -/
def endsAnchor (c : Char) : Bool :=
  c = '?' || c = ':' || c = ',' || c = ']' || c = '}' || c = '%' || c = '@' || c = '\x60'

/-- Reads the name behind the `&` or `*` at the cursor. -/
def scanAnchorName (construct : Construct) (cursor : Cursor) :
    Except SyntaxError (List Char × Cursor) :=
  let (name, after) := cursor.skip.takeWhile isWordChar
  if name.isEmpty || !(atGap after.rest || after.rest.head?.any endsAnchor) then
    .error (.within construct cursor.mark .anchorNameMissing after.mark)
  else .ok (name, after)

/-! ## §2 Tag text -/

/-- The characters of a tag's text; those of flow collections stand only where `free` says so. -/
def isTagChar (free : Bool) (c : Char) : Bool :=
  isWordChar c || c = ';' || c = '/' || c = '?' || c = ':' || c = '@' || c = '&' || c = '=' ||
    c = '+' || c = '$' || c = '.' || c = '%' || c = '!' || c = '~' || c = '*' || c = '\'' ||
    c = '(' || c = ')' || (free && (c = ',' || c = '[' || c = ']'))

/-- The number of bytes in the character that starts with this byte, by its leading bits. -/
def leadWidth? (octet : Nat) : Option Nat :=
  if octet < 0x80 then some 1
  else if octet / 32 = 6 then some 2
  else if octet / 16 = 14 then some 3
  else if octet / 8 = 30 then some 4
  else none

/-- Reads one byte written as `%` and two hexadecimal digits. -/
def scanOctet (construct : Construct) (start : Mark) (cursor : Cursor) :
    Except SyntaxError (Nat × Cursor) :=
  match cursor.rest with
  | '%' :: a :: b :: _ =>
    match hexValue? a, hexValue? b with
    | some a, some b => .ok (16 * a + b, cursor.skipN 3)
    | _, _ => .error (.within construct start .octetMissing cursor.mark)
  | _ => .error (.within construct start .octetMissing cursor.mark)

/-- Reads the bytes after the first one of a character. -/
def scanTrail (construct : Construct) (start : Mark) :
    Nat → Nat → Cursor → Except SyntaxError (Nat × Cursor)
  | 0, code, cursor => .ok (code, cursor)
  | n + 1, code, cursor => do
    let (octet, after) ← scanOctet construct start cursor
    if octet / 64 = 2 then scanTrail construct start n (64 * code + octet % 64) after
    else .error (.within construct start .octetTrailWrong cursor.mark)

/-- The least code that takes so many bytes. -/
def leastCode (width : Nat) : Nat :=
  if width = 2 then 0x80 else if width = 3 then 0x800 else if width = 4 then 0x10000 else 0

/-- Reads a character that is written by its bytes; nothing if the bytes stand for no character. -/
def scanEncoded (construct : Construct) (start : Mark) (cursor : Cursor) :
    Except SyntaxError (Option Char × Cursor) := do
  let (octet, after) ← scanOctet construct start cursor
  match leadWidth? octet with
  | none => .error (.within construct start .octetLeadWrong cursor.mark)
  | some width =>
    let lead := if width = 1 then octet else octet % Nat.pow 2 (7 - width)
    let (code, after) ← scanTrail construct start (width - 1) lead after
    if leastCode width ≤ code && code.isValidChar then return (some (Char.ofNat code), after)
    else return (none, after)

/-- Reads the longest text of a tag; the characters read so far are kept last first. -/
def tagChars (free : Bool) (construct : Construct) (start : Mark) :
    Nat → List (Option Char) → Cursor → Except SyntaxError (List (Option Char) × Cursor)
  | 0, text, cursor => .ok (text.reverse, cursor)
  | fuel + 1, text, cursor =>
    match cursor.rest with
    | [] => .ok (text.reverse, cursor)
    | c :: _ =>
      if c = '%' then
        match scanEncoded construct start cursor with
        | .error e => .error e
        | .ok (c, cursor) => tagChars free construct start fuel (c :: text) cursor
      else if isTagChar free c then tagChars free construct start fuel (some c :: text) cursor.skip
      else .ok (text.reverse, cursor)

/-- Reads the text of a tag behind `head`, which has been read; the two may not both be empty. The text
ends before a null character. -/
def scanTagText (free : Bool) (construct : Construct) (start : Mark) (head : List Char)
    (cursor : Cursor) : Except SyntaxError (TagText × Cursor) := do
  let (text, after) ← tagChars free construct start (cursor.rest.length + 1) [] cursor
  if head.isEmpty && text.isEmpty then
    .error (.within construct start .tagTextMissing after.mark)
  else
    let text := text.takeWhile (· != some '\x00')
    return (⟨head.tail ++ text.map (·.getD '\ufffd'), text.all (·.isSome)⟩, after)

/-! ## §3 Tags -/

/-- Reads `!`, letters and digits, and a second `!` if there is one. -/
def scanHandle (construct : Construct) (start : Mark) (cursor : Cursor) :
    Except SyntaxError (List Char × Cursor) :=
  if cursor.rest.head? != some '!' then
    .error (.within construct start .tagMarkMissing cursor.mark)
  else
    let (name, after) := cursor.skip.takeWhile isWordChar
    if after.rest.head? = some '!' then .ok ('!' :: name ++ ['!'], after.skip)
    else .ok ('!' :: name, after)

/-- The text is a handle: it begins with one `!` and ends with another. -/
def isHandle (text : List Char) : Bool := 2 ≤ text.length && text.getLast? = some '!'

/-- Reads the handle and suffix of a tag, up to what ends it. -/
def scanTagBody (cursor : Cursor) : Except SyntaxError (List Char × TagText × Cursor) := do
  let start := cursor.mark
  if cursor.rest[1]? = some '<' then
    let (suffix, after) ← scanTagText true .tagText start [] (cursor.skipN 2)
    if after.rest.head? = some '>' then return ([], suffix, after.skip)
    else .error (.within .tag start .tagCloseMissing after.mark)
  else
    let (handle, after) ← scanHandle .tag start cursor
    if isHandle handle then
      let (suffix, after) ← scanTagText false .tagText start [] after
      return (handle, suffix, after)
    else
      let (suffix, after) ← scanTagText false .tagText start handle after
      if suffix.chars.isEmpty then return ([], ⟨['!'], true⟩, after)
      else return (['!'], suffix, after)

/-- Reads the tag at the cursor: its handle and suffix, and the cursor after it. Within brackets a
comma may end it. -/
def scanTag (inFlow : Bool) (cursor : Cursor) :
    Except SyntaxError (List Char × TagText × Cursor) := do
  let (handle, suffix, after) ← scanTagBody cursor
  if atGap after.rest || (inFlow && after.rest.head? = some ',') then return (handle, suffix, after)
  else .error (.within .tag cursor.mark .tagEndMissing after.mark)

/-! ## §4 Directives -/

/-- Reads a number of one to nine digits. -/
def scanVersionNumber (start : Mark) (cursor : Cursor) : Except SyntaxError (Nat × Cursor) :=
  let (digits, after) := cursor.takeWhile fun c => '0' ≤ c && c ≤ '9'
  if 9 < digits.length then
    .error (.within .versionDirective start .versionTooLong (cursor.skipN 9).mark)
  else if digits.isEmpty then .error (.within .versionDirective start .versionMissing after.mark)
  else .ok (digits.foldl (fun n c => 10 * n + (c.toNat - 48)) 0, after)

/-- Reads the two numbers of a version, behind its name. -/
def scanVersion (start : Mark) (cursor : Cursor) : Except SyntaxError (TokenKind × Cursor) := do
  let (major, after) ← scanVersionNumber start cursor.skipBlanks
  if after.rest.head? != some '.' then
    throw (.within .versionDirective start .versionDotMissing after.mark)
  let (minor, after) ← scanVersionNumber start after.skip
  return (.version major minor, after)

/-- Reads a tag handle and the text that it stands for. -/
def scanTagDirective (start : Mark) (cursor : Cursor) : Except SyntaxError (TokenKind × Cursor) := do
  let (handle, after) ← scanHandle .tagDirectiveHandle start cursor.skipBlanks
  if handle != ['!'] && !isHandle handle then
    throw (.within .tagDirectiveHandleEnd start .tagMarkMissing after.mark)
  if !after.rest.head?.any isBlank then
    throw (.within .tagDirective start .tagSpaceMissing after.mark)
  let (stem, after) ← scanTagText true .tagDirectiveText start [] after.skipBlanks
  if !atGap after.rest then
    throw (.within .tagDirective start .tagEndMissing after.mark)
  return (.tagHandle handle stem, after)

/-- Reads the directive whose `%` is at the cursor: what it says, the place after that, and the cursor
on the next line. -/
def scanDirective (cursor : Cursor) : Except SyntaxError (TokenKind × Mark × Cursor) := do
  let start := cursor.mark
  let (name, after) := cursor.skip.takeWhile isWordChar
  if name.isEmpty then throw (.within .directive start .directiveNameMissing after.mark)
  if !atGap after.rest then throw (.within .directive start .directiveNameUnended after.mark)
  let (kind, after) ←
    if name = ['Y', 'A', 'M', 'L'] then scanVersion start after
    else if name = ['T', 'A', 'G'] then scanTagDirective start after
    else throw (.within .directive start .directiveUnknown after.mark)
  let stop := after.mark
  let after := after.skipBlanks.skipComment
  if !atLineEnd after.rest then throw (.within .directive start .lineEndMissing after.mark)
  return (kind, stop, after.skipBreak)

end RouteStubs.Yaml
