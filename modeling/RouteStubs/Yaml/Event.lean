import RouteStubs.Yaml.Token.Scan
/-!
From tokens to events: the nodes of a document in order, collections as a start and an end.

Each event answers to what is expected at its place, an `Expect`; what is to follow once a node is
complete is kept on a stack. A missing node is an empty plain scalar.
-/

namespace RouteStubs.Yaml

/-! ## §1 Events -/

/-- What may stand in front of a node: the name other nodes refer to it by, and its tag. -/
structure Properties where
  anchor : Option (List Char)
  tag : Option (List Char)
  deriving DecidableEq, Repr

/-- A node or a part of one. -/
inductive EventKind where
  | documentStart
  | documentEnd
  | streamEnd
  | alias (name : List Char)
  | scalar (properties : Properties) (style : ScalarStyle) (text : List Char)
  | sequenceStart (properties : Properties)
  | sequenceEnd
  | mappingStart (properties : Properties)
  | mappingEnd
  deriving DecidableEq, Repr

/-- An event and where it starts. -/
structure Event where
  kind : EventKind
  mark : Mark
  deriving DecidableEq, Repr

/-! ## §2 Reading tokens -/

/-- What is expected next. The states within a collection know where it starts. -/
inductive Expect where
  | documentStart (first : Bool)
  | documentContent
  | documentEnd
  | blockNode
  | blockEntry (start : Mark)
  | indentlessEntry
  | blockKey (start : Mark)
  | blockValue (start : Mark)
  | flowEntry (start : Mark) (first : Bool)
  | pairKey (start : Mark)
  | pairValue (start : Mark)
  | pairEnd (start : Mark)
  | flowKey (start : Mark) (first : Bool)
  | flowValue (start : Mark) (missing : Bool)
  | nothing

/-- The tokens still to be read, why they end if they break off, what is expected now and after each
open node, and the tag handles of the document. -/
structure Reader where
  tokens : List Token
  refusal : Option SyntaxError
  expect : Expect
  later : List Expect
  handles : List (List Char × TagText)

/-- An event and the reader after it, or an error. -/
abbrev Read := Except SyntaxError (Event × Reader)

namespace Reader

/-- The next token. -/
def peek (r : Reader) : Except SyntaxError Token :=
  match r.tokens with
  | token :: _ => .ok token
  | [] =>
    match r.refusal with
    | some e => .error e
    | none => .ok ⟨.streamEnd, .zero, .zero⟩

/-- Past the next token. -/
def advance (r : Reader) : Reader := { r with tokens := r.tokens.tail }

/-- Goes on to what was to follow the node that is complete now. -/
def leave (r : Reader) : Reader :=
  match r.later with
  | [] => { r with expect := .nothing }
  | expect :: later => { r with expect, later }

/-- Sets what is to follow the node that begins now. -/
def enter (r : Reader) (expect : Expect) : Reader := { r with later := expect :: r.later }

/-- Sets what is expected next. -/
def expecting (r : Reader) (expect : Expect) : Reader := { r with expect }

/-- An empty scalar where a node is missing. -/
def missingNode (r : Reader) (mark : Mark) : Read :=
  .ok (⟨.scalar ⟨none, none⟩ .plain [], mark⟩, r)

/-! ## §3 Nodes -/

/-- Reads an anchor, a tag, or both in either order: the anchor's name, the tag's parts and place, and
the reader after them. -/
def properties (r : Reader) :
    Except SyntaxError (Option (List Char) × Option (List Char × TagText × Mark) × Reader) := do
  let first ← r.peek
  match first.kind with
  | .anchor name =>
    let r := r.advance
    let second ← r.peek
    match second.kind with
    | .tag handle suffix => return (some name, some (handle, suffix, second.start), r.advance)
    | _ => return (some name, none, r)
  | .tag handle suffix =>
    let r := r.advance
    let second ← r.peek
    match second.kind with
    | .anchor name => return (some name, some (handle, suffix, first.start), r.advance)
    | _ => return (none, some (handle, suffix, first.start), r)
  | _ => return (none, none, r)

/-- The tag that a handle and a suffix make. A local tag that is not legible counts as none. -/
def resolveTag (r : Reader) (start : Mark) (handle : List Char) (suffix : TagText) (mark : Mark) :
    Except SyntaxError (Option (List Char)) :=
  let make (text : TagText) : Option (List Char) :=
    if text.chars.head? = some '!' && !text.legible then none else some text.chars
  if handle.isEmpty then .ok (make suffix)
  else
    match r.handles.lookup handle with
    | some stem => .ok (make ⟨stem.chars ++ suffix.chars, stem.legible && suffix.legible⟩)
    | none => .error (.within .node start .tagHandleUndefined mark)

/-- Reads a node, or the start of one. Block collections only where `block` says so, and a sequence
that is not indented only as a value in a block mapping (`indentless`). -/
def node (r : Reader) (block indentless : Bool) : Read := do
  let first ← r.peek
  match first.kind with
  | .alias name => return (⟨.alias name, first.start⟩, r.leave.advance)
  | _ =>
    let start := first.start
    let (anchor, parts, r) ← r.properties
    let token ← r.peek
    let tag ← match parts with
      | none => pure none
      | some (handle, suffix, mark) => r.resolveTag start handle suffix mark
    let found : Properties := ⟨anchor, tag⟩
    let bare := anchor.isNone && parts.isNone
    let missing : Read :=
      if bare then
        .error (.within (if block then .blockNode else .flowNode) start .nodeMissing token.start)
      else .ok (⟨.scalar found .plain [], start⟩, r.leave)
    match token.kind with
    | .blockEntry =>
      if indentless then return (⟨.sequenceStart found, start⟩, r.expecting .indentlessEntry)
      else missing
    | .scalar style text =>
      let found := if tag = some ['!'] then { found with tag := none } else found
      return (⟨.scalar found style text, start⟩, r.leave.advance)
    | .flowSequenceStart =>
      return (⟨.sequenceStart found, start⟩, r.advance.expecting (.flowEntry token.start true))
    | .flowMappingStart =>
      return (⟨.mappingStart found, start⟩, r.advance.expecting (.flowKey token.start true))
    | .blockSequenceStart =>
      if block then
        return (⟨.sequenceStart found, start⟩, r.advance.expecting (.blockEntry token.start))
      else missing
    | .blockMappingStart =>
      if block then
        return (⟨.mappingStart found, start⟩, r.advance.expecting (.blockKey token.start))
      else missing
    | _ => missing

/-! ## §4 Block collections -/

/-- An entry of a block sequence, or its end. -/
def blockEntry (r : Reader) (start : Mark) : Read := do
  let token ← r.peek
  match token.kind with
  | .blockEntry =>
    let r := r.advance
    match (← r.peek).kind with
    | .blockEntry | .blockEnd => (r.expecting (.blockEntry start)).missingNode token.stop
    | _ => (r.enter (.blockEntry start)).node true false
  | .blockEnd => return (⟨.sequenceEnd, token.start⟩, r.leave.advance)
  | _ => .error (.within .blockSequence start .dashMissing token.start)

/-- An entry of a sequence at the column of its mapping, or its end. -/
def indentlessEntry (r : Reader) : Read := do
  let token ← r.peek
  match token.kind with
  | .blockEntry =>
    let r := r.advance
    match (← r.peek).kind with
    | .blockEntry | .key | .value | .blockEnd =>
      (r.expecting .indentlessEntry).missingNode token.stop
    | _ => (r.enter .indentlessEntry).node true false
  | _ => return (⟨.sequenceEnd, token.start⟩, r.leave)

/-- A key of a block mapping, or its end. -/
def blockKey (r : Reader) (start : Mark) : Read := do
  let token ← r.peek
  match token.kind with
  | .key =>
    let r := r.advance
    match (← r.peek).kind with
    | .key | .value | .blockEnd => (r.expecting (.blockValue start)).missingNode token.stop
    | _ => (r.enter (.blockValue start)).node true true
  | .blockEnd => return (⟨.mappingEnd, token.start⟩, r.leave.advance)
  | _ => .error (.within .blockMapping start .keyMissing token.start)

/-- A value of a block mapping. -/
def blockValue (r : Reader) (start : Mark) : Read := do
  let token ← r.peek
  match token.kind with
  | .value =>
    let r := r.advance
    match (← r.peek).kind with
    | .key | .value | .blockEnd => (r.expecting (.blockKey start)).missingNode token.stop
    | _ => (r.enter (.blockKey start)).node true true
  | _ => (r.expecting (.blockKey start)).missingNode token.start

/-! ## §5 Flow collections -/

/-- Past the comma between two entries. -/
def separator (r : Reader) (first : Bool) (construct : Construct) (start : Mark) (problem : Problem) :
    Except SyntaxError Reader := do
  if first then return r
  let token ← r.peek
  match token.kind with
  | .flowEntry => return r.advance
  | _ => .error (.within construct start problem token.start)

/-- An entry of a flow sequence, or its end. An entry with a key is a mapping of one pair. -/
def flowEntry (r : Reader) (start : Mark) (first : Bool) : Read := do
  let finish (r : Reader) (token : Token) : Read :=
    .ok (⟨.sequenceEnd, token.start⟩, r.leave.advance)
  let token ← r.peek
  match token.kind with
  | .flowSequenceEnd => finish r token
  | _ =>
    let r ← r.separator first .flowSequence start .flowSequenceSeparator
    let token ← r.peek
    match token.kind with
    | .key => return (⟨.mappingStart ⟨none, none⟩, token.start⟩, r.advance.expecting (.pairKey start))
    | .flowSequenceEnd => finish r token
    | _ => (r.enter (.flowEntry start false)).node false false

/-- The key of a pair in a flow sequence. The token after a missing one is passed over. -/
def pairKey (r : Reader) (start : Mark) : Read := do
  let token ← r.peek
  match token.kind with
  | .value | .flowEntry | .flowSequenceEnd =>
    (r.advance.expecting (.pairValue start)).missingNode token.stop
  | _ => (r.enter (.pairValue start)).node false false

/-- The value of a pair in a flow sequence. -/
def pairValue (r : Reader) (start : Mark) : Read := do
  let token ← r.peek
  match token.kind with
  | .value =>
    let r := r.advance
    let token ← r.peek
    match token.kind with
    | .flowEntry | .flowSequenceEnd => (r.expecting (.pairEnd start)).missingNode token.start
    | _ => (r.enter (.pairEnd start)).node false false
  | _ => (r.expecting (.pairEnd start)).missingNode token.start

/-- The end of a pair in a flow sequence. -/
def pairEnd (r : Reader) (start : Mark) : Read := do
  let token ← r.peek
  return (⟨.mappingEnd, token.start⟩, r.expecting (.flowEntry start false))

/-- A key of a flow mapping, or its end. A key without a question mark or colon has no value. -/
def flowKey (r : Reader) (start : Mark) (first : Bool) : Read := do
  let finish (r : Reader) (token : Token) : Read :=
    .ok (⟨.mappingEnd, token.start⟩, r.leave.advance)
  let token ← r.peek
  match token.kind with
  | .flowMappingEnd => finish r token
  | _ =>
    let r ← r.separator first .flowMapping start .flowMappingSeparator
    let token ← r.peek
    match token.kind with
    | .key =>
      let r := r.advance
      let token ← r.peek
      match token.kind with
      | .value | .flowEntry | .flowMappingEnd =>
        (r.expecting (.flowValue start false)).missingNode token.start
      | _ => (r.enter (.flowValue start false)).node false false
    | .flowMappingEnd => finish r token
    | _ => (r.enter (.flowValue start true)).node false false

/-- A value of a flow mapping. -/
def flowValue (r : Reader) (start : Mark) (missing : Bool) : Read := do
  let token ← r.peek
  let none : Read := (r.expecting (.flowKey start false)).missingNode token.start
  if missing then none
  else
    match token.kind with
    | .value =>
      let r := r.advance
      let token ← r.peek
      match token.kind with
      | .flowEntry | .flowMappingEnd =>
        (r.expecting (.flowKey start false)).missingNode token.start
      | _ => (r.enter (.flowKey start false)).node false false
    | _ => none

/-! ## §6 Documents -/

/-- The handles that every document has. -/
def standardHandles : List (List Char × TagText) :=
  [(['!'], ⟨['!'], true⟩), (['!', '!'], ⟨"tag:yaml.org,2002:".toList, true⟩)]

/-- Reads directives: at most one version, which has to be 1.1 or 1.2, and handles, each once. -/
def directives : Nat → Bool → List (List Char × TagText) → Reader → Except SyntaxError Reader
  | 0, _, _, r => .ok r
  | fuel + 1, versioned, handles, r => do
    let token ← r.peek
    match token.kind with
    | .version major minor =>
      if versioned then throw (.plain .versionDuplicate token.start)
      if major != 1 || (minor != 1 && minor != 2) then throw (.plain .versionUnsupported token.start)
      directives fuel true handles r.advance
    | .tagHandle handle stem =>
      if (handles.lookup handle).isSome then throw (.plain .tagHandleDuplicate token.start)
      directives fuel versioned (handles ++ [(handle, stem)]) r.advance
    | _ => return { r with handles := handles ++ standardHandles }

/-- Past the document ends before a document. -/
def skipDocumentEnds : Nat → Reader → Except SyntaxError Reader
  | 0, r => .ok r
  | fuel + 1, r => do
    match (← r.peek).kind with
    | .documentEnd => skipDocumentEnds fuel r.advance
    | _ => return r

/-- The start of a document, or the end of all. Only the first document needs no marker. -/
def documentStart (r : Reader) (first : Bool) : Read := do
  let r ← if first then pure r else skipDocumentEnds (r.tokens.length + 1) r
  let token ← r.peek
  match token.kind with
  | .streamEnd => return (⟨.streamEnd, token.start⟩, r.advance.expecting .nothing)
  | .version .. | .tagHandle .. | .documentStart =>
    let r ← directives (r.tokens.length + 1) false [] r
    let marker ← r.peek
    if marker.kind != .documentStart then throw (.plain .documentStartMissing marker.start)
    return (⟨.documentStart, token.start⟩, (r.enter .documentEnd).advance.expecting .documentContent)
  | _ =>
    if first then
      return (⟨.documentStart, token.start⟩,
        { r.enter .documentEnd with expect := .blockNode, handles := standardHandles })
    else throw (.plain .documentStartMissing token.start)

/-- The node of a document behind its marker. -/
def documentContent (r : Reader) : Read := do
  let token ← r.peek
  match token.kind with
  | .version .. | .tagHandle .. | .documentStart | .documentEnd | .streamEnd =>
    r.leave.missingNode token.start
  | _ => r.node true false

/-- The end of a document. -/
def documentEnd (r : Reader) : Read := do
  let token ← r.peek
  let r := if token.kind = .documentEnd then r.advance else r
  return (⟨.documentEnd, token.start⟩, { r with expect := .documentStart false, handles := [] })

/-- The next event. -/
def next (r : Reader) : Read :=
  match r.expect with
  | .documentStart first => r.documentStart first
  | .documentContent => r.documentContent
  | .documentEnd => r.documentEnd
  | .blockNode => r.node true false
  | .blockEntry start => r.blockEntry start
  | .indentlessEntry => r.indentlessEntry
  | .blockKey start => r.blockKey start
  | .blockValue start => r.blockValue start
  | .flowEntry start first => r.flowEntry start first
  | .pairKey start => r.pairKey start
  | .pairValue start => r.pairValue start
  | .pairEnd start => r.pairEnd start
  | .flowKey start first => r.flowKey start first
  | .flowValue start missing => r.flowValue start missing
  | .nothing => .ok (⟨.streamEnd, .zero⟩, r)

/-- The events up to the end of all or to an error. -/
def events : Nat → Reader → List Event × Option SyntaxError
  | 0, _ => ([], none)
  | fuel + 1, r =>
    match r.next with
    | .error e => ([], some e)
    | .ok (event, r) =>
      if event.kind = .streamEnd then ([event], none)
      else
        let (events, error) := events fuel r
        (event :: events, error)

end Reader

/-- The events of a text, up to the end of all or to an error. -/
def eventsOfTokens (tokens : Tokens) : List Event × Option SyntaxError :=
  Reader.events (4 * tokens.tokens.length + 16)
    ⟨tokens.tokens, tokens.error, .documentStart true, [], []⟩

end RouteStubs.Yaml
