import RouteStubs.Yaml.Mark
/-!
What can be wrong with the form of a document.

A `SyntaxError` is a problem at a mark, mostly with the construct that was being read and where it
began. The wording of problems and constructs is in `Problem.message` and `Construct.message`.
-/

namespace RouteStubs.Yaml

/-- The rule of the notation that a document breaks. -/
inductive Problem where
  | forbiddenCharacter (offset : Nat)
  | colonMissing
  | sequenceEntryMisplaced
  | mappingKeyMisplaced
  | mappingValueMisplaced
  | noToken
  | directiveNameMissing
  | directiveNameUnended
  | directiveUnknown
  | lineEndMissing
  | versionTooLong
  | versionMissing
  | versionDotMissing
  | anchorNameMissing
  | tagMarkMissing
  | tagTextMissing
  | tagSpaceMissing
  | tagEndMissing
  | tagCloseMissing
  | octetMissing
  | octetLeadWrong
  | octetTrailWrong
  | indentationZero
  | indentationTab
  | indentationTabViolates
  | colonUnexpected
  | quoteDocumentMarker
  | quoteUnended
  | escapeUnknown
  | escapeDigitMissing
  | escapeNoCharacter
  | documentStartMissing
  | nodeMissing
  | tagHandleUndefined
  | dashMissing
  | keyMissing
  | flowSequenceSeparator
  | flowMappingSeparator
  | versionDuplicate
  | versionUnsupported
  | tagHandleDuplicate
  deriving DecidableEq, Repr

/-- The construct that was being read. -/
inductive Construct where
  | simpleKey
  | nextToken
  | directive
  | versionDirective
  | tagDirective
  | tagDirectiveHandle
  | tagDirectiveText
  | tagDirectiveHandleEnd
  | anchor
  | alias
  | tag
  | tagText
  | blockScalar
  | plainScalar
  | quotedScalar
  | quotedEscape
  | node
  | blockNode
  | flowNode
  | blockSequence
  | blockMapping
  | flowSequence
  | flowMapping
  deriving DecidableEq, Repr

/-- The words for a problem. -/
def Problem.message : Problem → String
  | .forbiddenCharacter _ => "control characters are not allowed"
  | .colonMissing => "could not find expected ':'"
  | .sequenceEntryMisplaced => "block sequence entries are not allowed in this context"
  | .mappingKeyMisplaced => "mapping keys are not allowed in this context"
  | .mappingValueMisplaced => "mapping values are not allowed in this context"
  | .noToken => "found character that cannot start any token"
  | .directiveNameMissing => "could not find expected directive name"
  | .directiveNameUnended => "found unexpected non-alphabetical character"
  | .directiveUnknown => "found unknown directive name"
  | .lineEndMissing => "did not find expected comment or line break"
  | .versionTooLong => "found extremely long version number"
  | .versionMissing => "did not find expected version number"
  | .versionDotMissing => "did not find expected digit or '.' character"
  | .anchorNameMissing => "did not find expected alphabetic or numeric character"
  | .tagMarkMissing => "did not find expected '!'"
  | .tagTextMissing => "did not find expected tag URI"
  | .tagSpaceMissing => "did not find expected whitespace"
  | .tagEndMissing => "did not find expected whitespace or line break"
  | .tagCloseMissing => "did not find the expected '>'"
  | .octetMissing => "did not find URI escaped octet"
  | .octetLeadWrong => "found an incorrect leading UTF-8 octet"
  | .octetTrailWrong => "found an incorrect trailing UTF-8 octet"
  | .indentationZero => "found an indentation indicator equal to 0"
  | .indentationTab => "found a tab character where an indentation space is expected"
  | .indentationTabViolates => "found a tab character that violates indentation"
  | .colonUnexpected => "found unexpected ':'"
  | .quoteDocumentMarker => "found unexpected document indicator"
  | .quoteUnended => "found unexpected end of stream"
  | .escapeUnknown => "found unknown escape character"
  | .escapeDigitMissing => "did not find expected hexdecimal number"
  | .escapeNoCharacter => "found invalid Unicode character escape code"
  | .documentStartMissing => "did not find expected <document start>"
  | .nodeMissing => "did not find expected node content"
  | .tagHandleUndefined => "found undefined tag handle"
  | .dashMissing => "did not find expected '-' indicator"
  | .keyMissing => "did not find expected key"
  | .flowSequenceSeparator => "did not find expected ',' or ']'"
  | .flowMappingSeparator => "did not find expected ',' or '\x7d'"
  | .versionDuplicate => "found duplicate %YAML directive"
  | .versionUnsupported => "found incompatible YAML document"
  | .tagHandleDuplicate => "found duplicate %TAG directive"

/-- The words for a construct. -/
def Construct.message : Construct → String
  | .simpleKey => "while scanning a simple key"
  | .nextToken => "while scanning for the next token"
  | .directive => "while scanning a directive"
  | .versionDirective => "while scanning a %YAML directive"
  | .tagDirective => "while scanning a %TAG directive"
  | .tagDirectiveHandle => "while scanning a tag directive"
  | .tagDirectiveText => "while parsing a %TAG directive"
  | .tagDirectiveHandleEnd => "while parsing a tag directive"
  | .anchor => "while scanning an anchor"
  | .alias => "while scanning an alias"
  | .tag => "while scanning a tag"
  | .tagText => "while parsing a tag"
  | .blockScalar => "while scanning a block scalar"
  | .plainScalar => "while scanning a plain scalar"
  | .quotedScalar => "while scanning a quoted scalar"
  | .quotedEscape => "while parsing a quoted scalar"
  | .node => "while parsing a node"
  | .blockNode => "while parsing a block node"
  | .flowNode => "while parsing a flow node"
  | .blockSequence => "while parsing a block collection"
  | .blockMapping => "while parsing a block mapping"
  | .flowSequence => "while parsing a flow sequence"
  | .flowMapping => "while parsing a flow mapping"

/-- A problem, where it is, and the construct that was being read with its start. -/
structure SyntaxError where
  problem : Problem
  mark : Mark
  context : Option (Construct × Mark)
  deriving DecidableEq, Repr

namespace SyntaxError

/-- A problem outside any construct. -/
def plain (problem : Problem) (mark : Mark) : SyntaxError := ⟨problem, mark, none⟩

/-- A problem within a construct that began at `start`. -/
def within (construct : Construct) (start : Mark) (problem : Problem) (mark : Mark) : SyntaxError :=
  ⟨problem, mark, some (construct, start)⟩

end SyntaxError

/-- A mark as people count, from one. -/
def Mark.message (m : Mark) : String := s!"line {m.line + 1} column {m.column + 1}"

/-- The problem and its place, then the construct and its place. A place at the very start is not
named, nor is the construct's place where it is the problem's; a character that may not occur in a
document at all has its byte offset instead. -/
def SyntaxError.message (e : SyntaxError) : String :=
  let place :=
    if !e.mark.isStart then " at " ++ e.mark.message
    else match e.problem with
      | .forbiddenCharacter offset => if offset = 0 then "" else s!" at position {offset}"
      | _ => ""
  let context := match e.context with
    | none => ""
    | some (construct, start) =>
      ", " ++ construct.message ++
        if !start.isStart && (start.line != e.mark.line || start.column != e.mark.column)
        then " at " ++ start.message else ""
  e.problem.message ++ place ++ context

end RouteStubs.Yaml
