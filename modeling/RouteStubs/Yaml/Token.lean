import RouteStubs.Yaml.SyntaxError
/-!
The tokens of a document.

Structure that a document shows by indentation is marked by tokens as well: a block collection begins
with its own token and ends with `blockEnd`, and a key in front of a colon has a `key` token before it.
-/

namespace RouteStubs.Yaml

/-- How a scalar is written. -/
inductive ScalarStyle where
  | plain
  | singleQuoted
  | doubleQuoted
  | literal
  | folded
  deriving DecidableEq, Repr

/-- The text of a tag. Text that is not `legible` has bytes that stand for no character. -/
structure TagText where
  chars : List Char
  legible : Bool
  deriving DecidableEq, Repr

/-- What a token says. -/
inductive TokenKind where
  | streamEnd
  | version (major minor : Nat)
  | tagHandle (handle : List Char) (stem : TagText)
  | documentStart
  | documentEnd
  | blockSequenceStart
  | blockMappingStart
  | blockEnd
  | flowSequenceStart
  | flowSequenceEnd
  | flowMappingStart
  | flowMappingEnd
  | blockEntry
  | flowEntry
  | key
  | value
  | alias (name : List Char)
  | anchor (name : List Char)
  | tag (handle : List Char) (suffix : TagText)
  | scalar (style : ScalarStyle) (text : List Char)
  deriving DecidableEq, Repr

/-- A token with the place where it starts and the place after it. -/
structure Token where
  kind : TokenKind
  start : Mark
  stop : Mark
  deriving DecidableEq, Repr

end RouteStubs.Yaml
