import RouteStubs.Yaml.Token.Plain
import RouteStubs.Yaml.Token.Block
import RouteStubs.Yaml.Token.Property
/-!
From a text to its tokens.

Whether a scalar or a collection is a key shows only at the colon after it, so each place where a key
may start is remembered as a `Candidate`, one for every open bracket; a `key` token is put there when
the colon comes. A candidate lapses when its line ends. In the block context the indentation decides
which collections are open: a deeper column opens one, a shallower one closes all that are deeper.

A reader of the tokens never sees one that lies behind an open candidate. So when a document is refused
only the tokens before the first candidate count: `Scan.released` is their number.
-/

namespace RouteStubs.Yaml

/-! ## §1 State -/

/-- A place where a key may start: the number of its token, and whether only a key may stand there. -/
structure Candidate where
  position : Nat
  required : Bool
  mark : Mark

/-- The tokens read so far and what is open. -/
structure Scan where
  cursor : Cursor
  /-- The tokens, last first. -/
  tokens : List Token
  /-- The number of tokens that stand even if the rest is refused. -/
  released : Nat
  /-- The column of the innermost block collection, `-1` outside. -/
  indent : Int
  /-- The columns of the block collections around it. -/
  indents : List Int
  /-- A key may start here. -/
  keyAllowed : Bool
  /-- The candidate at the innermost bracket level. -/
  candidate : Option Candidate
  /-- The candidates at the levels around it, innermost first. -/
  outer : List (Option Candidate)
  /-- The last token has been read. -/
  ended : Bool

namespace Scan

/-- The start of a text. -/
def ofText (text : List Char) : Scan :=
  ⟨.ofText text, [], 0, -1, [], true, none, [], false⟩

/-- Within brackets. -/
def inFlow (s : Scan) : Bool := !s.outer.isEmpty

/-- Adds a token. -/
def push (s : Scan) (kind : TokenKind) (start stop : Mark) : Scan :=
  { s with tokens := ⟨kind, start, stop⟩ :: s.tokens }

/-- Puts a token before the token of this number. -/
def pushAt (s : Scan) (position : Nat) (kind : TokenKind) (mark : Mark) : Scan :=
  let later := s.tokens.length - position
  { s with tokens := s.tokens.take later ++ ⟨kind, mark, mark⟩ :: s.tokens.drop later }

/-- Reads an indicator of `n` characters as a token. -/
def pushIndicator (s : Scan) (n : Nat) (kind : TokenKind) : Scan :=
  let after := s.cursor.skipN n
  { s.push kind s.cursor.mark after.mark with cursor := after }

/-! ## §2 Indentation -/

/-- Opens a block collection at a column, if it is deeper than the open one; its token goes before the
token of the given number, or to the end. -/
def openBlock (s : Scan) (column : Nat) (position : Option Nat) (kind : TokenKind) (mark : Mark) :
    Scan :=
  if s.inFlow || (column : Int) ≤ s.indent then s
  else
    let s := { s with indents := s.indent :: s.indents, indent := column }
    match position with
    | none => s.push kind mark mark
    | some position => s.pushAt position kind mark

/-- The tokens after closing every block collection deeper than a column, its indentation and those
around it. -/
def closeDeeper (column : Int) (mark : Mark) :
    List Int → Int → List Token → List Token × Int × List Int
  | [], indent, tokens => (tokens, indent, [])
  | around :: indents, indent, tokens =>
    if column < indent then
      closeDeeper column mark indents around (⟨.blockEnd, mark, mark⟩ :: tokens)
    else (tokens, indent, around :: indents)

/-- Closes every block collection deeper than a column. -/
def closeBlocks (s : Scan) (column : Int) : Scan :=
  if s.inFlow then s
  else
    let (tokens, indent, indents) := closeDeeper column s.cursor.mark s.indents s.indent s.tokens
    { s with tokens, indent, indents }

/-! ## §3 Candidates -/

/-- Drops the innermost candidate, unless a key had to stand there. -/
def dropCandidate (s : Scan) : Except SyntaxError Scan :=
  match s.candidate with
  | some ⟨_, true, mark⟩ => .error (.within .simpleKey mark .colonMissing s.cursor.mark)
  | _ => .ok { s with candidate := none }

/-- Notes that a key may start at the cursor. A key is required where the column is that of the open
block collection. -/
def addCandidate (s : Scan) : Except SyntaxError Scan :=
  if s.keyAllowed then do
    let required := !s.inFlow && s.indent == (s.cursor.mark.column : Int)
    let s ← s.dropCandidate
    return { s with candidate := some ⟨s.tokens.length, required, s.cursor.mark⟩ }
  else .ok s

/-- A candidate lapses after its line, and after 1024 bytes. -/
def Candidate.isStale (mark : Mark) (c : Candidate) : Bool :=
  c.mark.line < mark.line || c.mark.index + 1024 < mark.index

/-- The candidates without the stale ones, outermost first; the first stale one at which a key had to
stand is an error. -/
def dropStaleFrom (mark : Mark) : List (Option Candidate) → Except SyntaxError (List (Option Candidate))
  | [] => .ok []
  | none :: rest => (dropStaleFrom mark rest).map (none :: ·)
  | some c :: rest =>
    if Candidate.isStale mark c then
      if c.required then .error (.within .simpleKey c.mark .colonMissing mark)
      else (dropStaleFrom mark rest).map (none :: ·)
    else (dropStaleFrom mark rest).map (some c :: ·)

/-- Drops the stale candidates. -/
def dropStale (s : Scan) : Except SyntaxError Scan := do
  match (← dropStaleFrom s.cursor.mark (s.candidate :: s.outer).reverse).reverse with
  | [] => return s
  | candidate :: outer => return { s with candidate, outer }

/-- The number of tokens in front of the first candidate. -/
def settled (s : Scan) : Nat :=
  (s.candidate :: s.outer).foldl (fun n c => c.elim n fun c => min n c.position) s.tokens.length

/-! ## §4 Single tokens -/

/-- The end of the text, which counts as a new line. -/
def scanEnd (s : Scan) : Except SyntaxError Scan := do
  let mark := s.cursor.mark
  let mark := if mark.column = 0 then mark else ⟨mark.index, mark.line + 1, 0⟩
  let s := { s with cursor := { s.cursor with mark } }
  let s ← (s.closeBlocks (-1)).dropCandidate
  return { s.push .streamEnd mark mark with keyAllowed := false, ended := true }

/-- A directive. -/
def scanDirectiveToken (s : Scan) : Except SyntaxError Scan := do
  let s ← (s.closeBlocks (-1)).dropCandidate
  let (kind, stop, after) ← scanDirective s.cursor
  return { s.push kind s.cursor.mark stop with cursor := after, keyAllowed := false }

/-- A document marker. -/
def scanDocumentMarker (s : Scan) (kind : TokenKind) : Except SyntaxError Scan := do
  let s ← (s.closeBlocks (-1)).dropCandidate
  return { s.pushIndicator 3 kind with keyAllowed := false }

/-- An opening bracket. -/
def scanFlowStart (s : Scan) (kind : TokenKind) : Except SyntaxError Scan := do
  let s ← s.addCandidate
  return { s.pushIndicator 1 kind with
    keyAllowed := true, candidate := none, outer := s.candidate :: s.outer }

/-- A closing bracket. -/
def scanFlowEnd (s : Scan) (kind : TokenKind) : Except SyntaxError Scan := do
  let s := { (← s.dropCandidate).pushIndicator 1 kind with keyAllowed := false }
  match s.outer with
  | [] => return s
  | candidate :: outer => return { s with candidate, outer }

/-- A comma between the entries of a flow collection. -/
def scanFlowEntry (s : Scan) : Except SyntaxError Scan := do
  return { (← s.dropCandidate).pushIndicator 1 .flowEntry with keyAllowed := true }

/-- A dash in front of an entry. -/
def scanBlockEntry (s : Scan) : Except SyntaxError Scan := do
  let mark := s.cursor.mark
  if !s.inFlow && !s.keyAllowed then throw (.plain .sequenceEntryMisplaced mark)
  let s := s.openBlock mark.column none .blockSequenceStart mark
  return { (← s.dropCandidate).pushIndicator 1 .blockEntry with keyAllowed := true }

/-- A question mark in front of a key. -/
def scanKey (s : Scan) : Except SyntaxError Scan := do
  let mark := s.cursor.mark
  if !s.inFlow && !s.keyAllowed then throw (.plain .mappingKeyMisplaced mark)
  let s := s.openBlock mark.column none .blockMappingStart mark
  let s ← s.dropCandidate
  return { s.pushIndicator 1 .key with keyAllowed := !s.inFlow }

/-- A colon in front of a value. The candidate, if there is one, is the key. -/
def scanValue (s : Scan) : Except SyntaxError Scan := do
  let mark := s.cursor.mark
  match s.candidate with
  | some key =>
    let s := s.pushAt key.position .key key.mark
    let s := s.openBlock key.mark.column (some key.position) .blockMappingStart key.mark
    return { s.pushIndicator 1 .value with keyAllowed := false, candidate := none }
  | none =>
    if !s.inFlow && !s.keyAllowed then throw (.plain .mappingValueMisplaced mark)
    let s := s.openBlock mark.column none .blockMappingStart mark
    return { s.pushIndicator 1 .value with keyAllowed := !s.inFlow }

/-- An alias. -/
def scanAlias (s : Scan) : Except SyntaxError Scan := do
  let s ← s.addCandidate
  let (name, after) ← scanAnchorName .alias s.cursor
  return { s.push (.alias name) s.cursor.mark after.mark with cursor := after, keyAllowed := false }

/-- An anchor. -/
def scanAnchor (s : Scan) : Except SyntaxError Scan := do
  let s ← s.addCandidate
  let (name, after) ← scanAnchorName .anchor s.cursor
  return { s.push (.anchor name) s.cursor.mark after.mark with cursor := after, keyAllowed := false }

/-- A tag. -/
def scanTagToken (s : Scan) : Except SyntaxError Scan := do
  let s ← s.addCandidate
  let (handle, suffix, after) ← scanTag s.inFlow s.cursor
  return { s.push (.tag handle suffix) s.cursor.mark after.mark with
    cursor := after, keyAllowed := false }

/-- A block scalar. -/
def scanBlockScalar (s : Scan) (style : ScalarStyle) : Except SyntaxError Scan := do
  let s ← s.dropCandidate
  let (text, after) ← scanBlock (style == .folded) s.indent s.cursor
  return { s.push (.scalar style text) s.cursor.mark after.mark with
    cursor := after, keyAllowed := true }

/-- A scalar in quotes. -/
def scanQuotedScalar (s : Scan) (style : ScalarStyle) : Except SyntaxError Scan := do
  let s ← s.addCandidate
  let (text, after) ← scanQuoted (if style == .singleQuoted then '\'' else '"') s.cursor
  return { s.push (.scalar style text) s.cursor.mark after.mark with
    cursor := after, keyAllowed := false }

/-- A plain scalar. After one that ends with its line a key may start. -/
def scanPlainScalar (s : Scan) : Except SyntaxError Scan := do
  let s ← s.addCandidate
  let plain ← scanPlain s.inFlow (s.indent + 1).toNat s.cursor
  return { s.push (.scalar .plain plain.text) s.cursor.mark plain.stop with
    cursor := plain.cursor, keyAllowed := plain.brokenAfter }

/-! ## §5 The next token -/

/-- Past spaces, comments and line breaks; tabs only within brackets or where no key may start. After a
line break outside brackets a key may start. A byte order mark may begin the text. -/
def skipToToken : Nat → Scan → Scan
  | 0, s => s
  | fuel + 1, s =>
    let cursor :=
      if s.cursor.mark.index = 0 && s.cursor.rest.head? = some '\ufeff' then s.cursor.skip
      else s.cursor
    let cursor :=
      (cursor.dropWhile fun c => c = ' ' || (c = '\t' && (s.inFlow || !s.keyAllowed))).skipComment
    if cursor.rest.head?.any isBreak then
      skipToToken fuel { s with cursor := cursor.skipBreak, keyAllowed := s.keyAllowed || !s.inFlow }
    else { s with cursor }

/-- A plain scalar may start with this text: not with a blank or an indicator, except a dash, and
outside brackets a question mark or colon, that a word goes on from. -/
def startsPlain (inFlow : Bool) : List Char → Bool
  | [] => false
  | c :: rest =>
    if c = '-' then !rest.head?.any isBlank
    else if c = '?' || c = ':' then !inFlow && !atGap rest
    else !(isBlank c || isBreak c || isFlowIndicator c || c = '#' || c = '&' || c = '*' || c = '!' ||
      c = '|' || c = '>' || c = '\'' || c = '"' || c = '%' || c = '@' || c = '\x60')

/-- Reads the token at the cursor, by its first characters. -/
def scanToken (s : Scan) : Except SyntaxError Scan :=
  let cursor := s.cursor
  match cursor.rest with
  | [] => s.scanEnd
  | c :: rest =>
    if cursor.mark.column = 0 && c = '%' then s.scanDirectiveToken
    else if cursor.atDocumentMarker then
      s.scanDocumentMarker (if c = '-' then .documentStart else .documentEnd)
    else if c = '[' then s.scanFlowStart .flowSequenceStart
    else if c = '{' then s.scanFlowStart .flowMappingStart
    else if c = ']' then s.scanFlowEnd .flowSequenceEnd
    else if c = '}' then s.scanFlowEnd .flowMappingEnd
    else if c = ',' then s.scanFlowEntry
    else if c = '-' && atGap rest then s.scanBlockEntry
    else if c = '?' && (s.inFlow || atGap rest) then s.scanKey
    else if c = ':' && (s.inFlow || atGap rest) then s.scanValue
    else if c = '*' then s.scanAlias
    else if c = '&' then s.scanAnchor
    else if c = '!' then s.scanTagToken
    else if c = '|' && !s.inFlow then s.scanBlockScalar .literal
    else if c = '>' && !s.inFlow then s.scanBlockScalar .folded
    else if c = '\'' then s.scanQuotedScalar .singleQuoted
    else if c = '"' then s.scanQuotedScalar .doubleQuoted
    else if startsPlain s.inFlow cursor.rest then s.scanPlainScalar
    else .error (.within .nextToken cursor.mark .noToken cursor.mark)

/-- Reads the next token, with the tokens that indentation puts before it. -/
def next (s : Scan) : Except SyntaxError Scan := do
  let s ← (skipToToken (s.cursor.rest.length + 1) s).dropStale
  (s.closeBlocks s.cursor.mark.column).scanToken

end Scan

/-! ## §6 Whole texts -/

/-- The tokens of a text in order, up to the last one or to an error. -/
structure Tokens where
  tokens : List Token
  error : Option SyntaxError

/-- Only what is released stands before an error. -/
def Scan.refuse (s : Scan) (e : SyntaxError) : Tokens := ⟨s.tokens.reverse.take s.released, some e⟩

/-- Reads tokens to the end. A `fault` is the error to report where the text breaks off: once fewer
than four characters are left nothing more is read. -/
def Scan.run (fault : Option SyntaxError) : Nat → Scan → Tokens
  | 0, s => ⟨s.tokens.reverse, none⟩
  | fuel + 1, s =>
    match s.next with
    | .error e =>
      match fault with
      | some fault => if e.mark.index + 4 < s.cursor.mark.index + Text.byteLength s.cursor.rest
        then s.refuse e else s.refuse fault
      | none => s.refuse e
    | .ok after =>
      match fault with
      | some fault =>
        if after.cursor.rest.length < 4 then s.refuse fault
        else
          match after.dropStale with
          | .error e => s.refuse e
          | .ok after => Scan.run (some fault) fuel { after with released := after.settled }
      | none =>
        if after.ended then ⟨after.tokens.reverse, none⟩
        else
          match after.dropStale with
          | .error e => s.refuse e
          | .ok after => Scan.run none fuel { after with released := after.settled }

/-- A character that a document may contain. -/
def isPermitted (c : Char) : Bool :=
  let n := c.toNat
  n = 9 || n = 10 || n = 13 || (0x20 ≤ n && n ≤ 0x7E) || n = 0x85 || (0xA0 ≤ n && n ≤ 0xD7FF) ||
    (0xE000 ≤ n && n ≤ 0xFFFD) || 0x10000 ≤ n

/-- The number of bytes that are looked at together. -/
def blockSize : Nat := 16384

/-- The characters before the block with the first character that may not occur, and the offset of that
character, if there is one. The blocks are of `blockSize` bytes at most, cut between characters. The
characters read so far are kept last first: those of complete blocks and those of the open one. -/
def splitAtForbidden (complete block : List Char) (used offset : Nat) :
    List Char → List Char × Option Nat
  | [] => ((block ++ complete).reverse, none)
  | c :: rest =>
    let size := c.utf8Size
    if blockSize < used + size then
      if isPermitted c then splitAtForbidden (block ++ complete) [c] size (offset + size) rest
      else ((block ++ complete).reverse, some offset)
    else if isPermitted c then splitAtForbidden complete (c :: block) (used + size) (offset + size) rest
    else (complete.reverse, some offset)

/-- The tokens of a text. -/
def Tokens.ofText (text : List Char) : Tokens :=
  let (text, forbidden) := splitAtForbidden [] [] 0 0 text
  let fault := forbidden.map fun offset => SyntaxError.plain (.forbiddenCharacter offset) .zero
  Scan.run fault (text.length + 2) (.ofText text)

end RouteStubs.Yaml
