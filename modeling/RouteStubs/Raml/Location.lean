import RouteStubs.Text.Utf8
/-!
Where a key stands in a document.

A key is found by its way from the root: the first key is searched from the start of the text, and each
further one behind the one before it, always with the colon that follows it. Spans are in bytes.
-/

namespace RouteStubs.Raml

/-- A range of bytes in a document. -/
structure Span where
  offset : Nat
  length : Nat
  deriving DecidableEq, Repr

/-- The span of the last of these keys in the text, which begins at byte `offset` of the document; each
key is the first occurrence behind the one before. -/
def locateFrom (offset : Nat) (text : List Char) : List (List Char) → Option Span → Option Span
  | [], found => found
  | key :: keys, _ =>
    match Text.splitAtFirst? (key ++ [':']) text with
    | none => none
    | some (before, after) =>
      let start := offset + Text.byteLength before
      locateFrom (start + Text.byteLength key + 1) after keys (some ⟨start, Text.byteLength key⟩)

/-- The span of the last key of a way through a document. There is none for the empty way, and none if
some key is not found. -/
def locate (document : List Char) (path : List String) : Option Span :=
  locateFrom 0 document (path.map String.toList) none

end RouteStubs.Raml
