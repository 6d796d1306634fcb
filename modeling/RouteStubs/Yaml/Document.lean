import RouteStubs.Yaml.Event
import RouteStubs.Yaml.Scalar
/-!
From the events of a text to the value that it writes.

A text holds one document. Its events are read as a value from the front, so a value that is wrong is
reported before an error of form behind it. An alias reads the events of the node that has the anchor
once more. What guards against endless reading is a bound on the depth of collections and one on the
number of aliases read.
-/

namespace RouteStubs.Yaml

/-! ## §1 Errors -/

/-- Where a value stands: the way to it from the root. -/
inductive Path where
  | root
  | item (parent : Path) (index : Nat)
  | entry (parent : Path) (key : List Char)
  | unnamed (parent : Path)
  | viaAlias (parent : Path)

/-- The way to a value: keys joined by points, and indices in brackets. An alias adds nothing, except
that at the root it counts as a key. -/
def Path.text : Path → List Char
  | .root => ['.']
  | .item parent index => parent.text ++ '[' :: decimalDigits index ++ [']']
  | .entry .root key => key
  | .entry parent key => parent.text ++ '.' :: key
  | .unnamed .root => ['?']
  | .unnamed parent => parent.text ++ ['.', '?']
  | .viaAlias parent => parent.text

/-- Why a text has no value. -/
inductive ReadError where
  | form (e : SyntaxError)
  | value (problem : ValueProblem) (path : Path) (mark : Mark)
  | unknownAnchor (mark : Mark)
  | tooDeep (mark : Mark)
  | tooManyAliases
  | endOfText
  | manyDocuments

namespace ReadError

/-- The place that the error is about. -/
def mark? : ReadError → Option Mark
  | .form e => some e.mark
  | .value _ _ mark | .unknownAnchor mark | .tooDeep mark => some mark
  | .tooManyAliases | .endOfText | .manyDocuments => none

/-- A message with its place; a place at the very start is not named. -/
def placed (text : List Char) (mark : Mark) : List Char :=
  if mark.isStart then text else text ++ " at ".toList ++ mark.message.toList

/-- The words for an error. A value is named by its path, unless it is the root. -/
def message : ReadError → List Char
  | .form e => e.message.toList
  | .value problem path mark =>
    let path := path.text
    placed ((if path = ['.'] then [] else path ++ [':', ' ']) ++ problem.message) mark
  | .unknownAnchor mark => placed "unknown anchor".toList mark
  | .tooDeep mark => placed "recursion limit exceeded".toList mark
  | .tooManyAliases => "repetition limit exceeded".toList
  | .endOfText => "EOF while parsing a value".toList
  | .manyDocuments =>
    "deserializing from YAML containing more than one document is not supported".toList

end ReadError

/-! ## §2 Documents -/

/-- An event of a document whose aliases are numbered. -/
inductive NodeKind where
  | nothing
  | alias (number : Nat)
  | scalar (tag : Option (List Char)) (style : ScalarStyle) (text : List Char)
  | sequenceStart (tag : Option (List Char))
  | sequenceEnd
  | mappingStart (tag : Option (List Char))
  | mappingEnd

/-- The events of one document, the events from each numbered node on, and why the events end early if
they do. -/
structure Document where
  events : List (NodeKind × Mark)
  targets : List (Nat × List (NodeKind × Mark))
  failure : Option ReadError

/-- The names of anchors with the number of the node that each stands for, the latest first. -/
abbrev Anchors := List (List Char × Nat)

/-- The number that a further anchor gets: how many names there are. A name that is used again keeps its
place, so that two nodes may come to share a number; then both names stand for the later node. -/
def Anchors.nextNumber (anchors : Anchors) : Nat := (anchors.map (·.1)).eraseDups.length

namespace Document

/-- A document with one more event in front; a numbered event becomes a target, unless a later one has
its number. -/
def cons (kind : NodeKind) (mark : Mark) (number : Option Nat) (d : Document) : Document :=
  let events := (kind, mark) :: d.events
  match number with
  | some n =>
    if (d.targets.lookup n).isSome then { d with events }
    else { d with events, targets := (n, events) :: d.targets }
  | none => { d with events }

/-- The events of a document up to its end, with what follows it; `failure` is why the events end. -/
def ofEvents (failure : Option SyntaxError) : Anchors → List Event → Document × List Event
  | _, [] => (⟨[], [], failure.map .form⟩, [])
  | anchors, ⟨kind, mark⟩ :: rest =>
    let anchored (properties : Properties) : Option Nat × Anchors :=
      match properties.anchor with
      | some name => (some anchors.nextNumber, (name, anchors.nextNumber) :: anchors)
      | none => (none, anchors)
    let node (kind : NodeKind) (properties : Properties) : Document × List Event :=
      let (number, anchors) := anchored properties
      let (d, after) := ofEvents failure anchors rest
      (d.cons kind mark number, after)
    match kind with
    | .documentStart => ofEvents failure anchors rest
    | .documentEnd => (⟨[], [], none⟩, rest)
    | .streamEnd => (⟨[(.nothing, mark)], [], none⟩, [⟨kind, mark⟩])
    | .alias name =>
      match anchors.lookup name with
      | none => (⟨[], [], some (.unknownAnchor mark)⟩, rest)
      | some number =>
        let (d, after) := ofEvents failure anchors rest
        (d.cons (.alias number) mark none, after)
    | .scalar properties style text => node (.scalar properties.tag style text) properties
    | .sequenceStart properties => node (.sequenceStart properties.tag) properties
    | .mappingStart properties => node (.mappingStart properties.tag) properties
    | .sequenceEnd => node .sequenceEnd ⟨none, none⟩
    | .mappingEnd => node .mappingEnd ⟨none, none⟩

/-! ## §3 Values -/

/-- A text without the `!` in front of it, unless there is nothing else. -/
def withoutBang : List Char → List Char
  | '!' :: c :: rest => c :: rest
  | s => s

/-- The name in a local tag, that is one that begins with `!`. A second `!` does not belong to it. -/
def localTag? : Option (List Char) → Option String
  | some ('!' :: rest) => some (String.ofList (withoutBang (withoutBang ('!' :: rest))))
  | _ => none

/-- The type that a tag demands of a scalar. -/
def typeOfTag? (tag : List Char) : Option ScalarType :=
  if tag = "tag:yaml.org,2002:bool".toList then some .boolean
  else if tag = "tag:yaml.org,2002:int".toList then some .integer
  else if tag = "tag:yaml.org,2002:float".toList then some .real
  else if tag = "tag:yaml.org,2002:null".toList then some .null
  else none

/-- The value of a scalar without a local tag. Tags of other types than the four demand a text. -/
def scalarValue (tag : Option (List Char)) (style : ScalarStyle) (text : List Char) :
    Except ValueProblem Value :=
  match tag.bind typeOfTag? with
  | some wanted => typedValue wanted text
  | none =>
    if style == .plain && tag.isNone then plainValue text else .ok (.text (String.ofList text))

/-- The bound on the depth of collections. -/
def maxDepth : Nat := 128

/-- What is still to be read, and the number of aliases read so far. -/
structure Place where
  events : List (NodeKind × Mark)
  aliases : Nat

/-- The error where the events end early. -/
def endError (d : Document) : ReadError := d.failure.getD .endOfText

/-- The way to the value under a key: keys that are scalars are named. -/
def pathOfKey (parent : Path) : NodeKind → Path
  | .scalar _ _ key => .entry parent key
  | _ => .unnamed parent

mutual

/-- Reads one value. `depth` collections may still be opened. Behind a local tag (`tagged`) the node's
own tag counts no more. -/
def readValue (d : Document) :
    Nat → Path → Nat → Bool → Place → Except ReadError (Value × Place)
  | 0, _, _, _, _ => .error .endOfText
  | fuel + 1, path, depth, tagged, place =>
    match place.events with
    | [] => .error d.endError
    | (kind, mark) :: rest =>
      let behindTag (name : String) : Except ReadError (Value × Place) :=
        (readValue d fuel path depth true place).map fun (v, after) => (.tagged name v, after)
      match kind with
      | .nothing | .sequenceEnd | .mappingEnd => .ok (.null, ⟨rest, place.aliases⟩)
      | .alias number =>
        if 100 * d.events.length < place.aliases + 1 then .error .tooManyAliases
        else
          let target := (d.targets.lookup number).getD []
          (readValue d fuel (.viaAlias path) depth false ⟨target, place.aliases + 1⟩).map
            fun (v, after) => (v, ⟨rest, after.aliases⟩)
      | .scalar tag style text =>
        match if tagged then none else localTag? tag with
        | some name => behindTag name
        | none =>
          match scalarValue (if tagged then none else tag) style text with
          | .ok v => .ok (v, ⟨rest, place.aliases⟩)
          | .error problem => .error (.value problem path mark)
      | .sequenceStart tag =>
        match if tagged then none else localTag? tag with
        | some name => behindTag name
        | none =>
          match depth with
          | 0 => .error (.tooDeep mark)
          | depth + 1 =>
            (readItems d fuel path depth 0 ⟨rest, place.aliases⟩).map
              fun (items, after) => (.sequence items, after)
      | .mappingStart tag =>
        match if tagged then none else localTag? tag with
        | some name => behindTag name
        | none =>
          match depth with
          | 0 => .error (.tooDeep mark)
          | depth + 1 =>
            (readEntries d fuel path mark depth tagged [] ⟨rest, place.aliases⟩).map
              fun (entries, after) => (.mapping entries, after)
termination_by structural fuel => fuel

/-- Reads the items of a sequence from the given index on, and its end. -/
def readItems (d : Document) :
    Nat → Path → Nat → Nat → Place → Except ReadError (List Value × Place)
  | 0, _, _, _, _ => .error .endOfText
  | fuel + 1, path, depth, index, place =>
    match place.events with
    | [] => .error d.endError
    | (.sequenceEnd, _) :: rest | (.nothing, _) :: rest => .ok ([], ⟨rest, place.aliases⟩)
    | _ => do
      let (item, place) ← readValue d fuel (.item path index) depth false place
      let (items, place) ← readItems d fuel path depth (index + 1) place
      return (item :: items, place)
termination_by structural fuel => fuel

/-- Reads the entries of a mapping that starts at `start`, and its end. The entries read so far are kept
last first; a key that is among them is refused before its value is read. -/
def readEntries (d : Document) :
    Nat → Path → Mark → Nat → Bool → List (Value × Value) → Place →
      Except ReadError (List (Value × Value) × Place)
  | 0, _, _, _, _, _, _ => .error .endOfText
  | fuel + 1, path, start, depth, tagged, entries, place =>
    match place.events with
    | [] => .error d.endError
    | (.mappingEnd, _) :: rest | (.nothing, _) :: rest =>
      .ok (entries.reverse, ⟨rest, place.aliases⟩)
    | (kind, _) :: _ => do
      let (key, place) ← readValue d fuel path depth tagged place
      if entries.any fun entry => entry.1.same key then
        throw (.value (.duplicateKey key) path start)
      let (value, place) ← readValue d fuel (pathOfKey path kind) depth false place
      readEntries d fuel path start depth tagged ((key, value) :: entries) place
termination_by structural fuel => fuel

end

/-- The value of a document. Then the form of the rest of it counts. -/
def value (d : Document) : Except ReadError Value := do
  let fuel := (2 * maxDepth + 4) * (d.events.length + 4)
  let (v, _) ← readValue d fuel .root maxDepth false ⟨d.events, 0⟩
  match d.failure with
  | some e => throw e
  | none => return v

end Document

/-! ## §4 Texts -/

/-- The value that a text writes. -/
def Value.ofText (text : List Char) : Except ReadError Value := do
  let (events, failure) := eventsOfTokens (Tokens.ofText text)
  let (document, rest) := Document.ofEvents failure [] events
  let v ← document.value
  match rest with
  | [⟨.streamEnd, _⟩] => return v
  | _ => throw .manyDocuments

end RouteStubs.Yaml
