import RouteStubs.Text.Space
/-!
Texts of an API description as comments in source code.

A description becomes lines, whatever its line breaks are; a path becomes one line. No control character
but the tab is left in either, so that a comment ends where its line ends.
-/

namespace RouteStubs.Source

/-- The text with each pair of carriage return and line feed made one line feed. -/
def joinReturns : List Char → List Char
  | '\r' :: '\n' :: rest => '\n' :: joinReturns rest
  | c :: rest => c :: joinReturns rest
  | [] => []

/-- A character of a description: a carriage return ends a line, tabs stay, and other control characters
become spaces. -/
def docChar (c : Char) : Char :=
  if c = '\r' then '\n'
  else if c = '\n' || c = '\t' then c
  else if Text.isControl c then ' '
  else c

/-- The lines of a description, without white space around the text or behind a line. -/
def docLines (description : List Char) : List (List Char) :=
  (Text.lines (Text.trim ((joinReturns description).map docChar))).map Text.trimEnd

/-- A text on one line, its control characters made spaces. -/
def onOneLine (text : List Char) : List Char :=
  text.map fun c => if Text.isControl c then ' ' else c

end RouteStubs.Source
