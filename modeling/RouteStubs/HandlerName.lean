import RouteStubs.Text.Case
/-!
Names for handlers.

A display name becomes the name of a function: the first character of each word is upper-cased, and then
everything but ASCII letters and digits is dropped. The result may be empty or start with a digit;
`isIdentifier` tells whether it can stand in source code.
-/

namespace RouteStubs

/-- A word with its first character in upper case. -/
def titled : List Char → List Char
  | [] => []
  | c :: rest => Text.upper c :: rest

/-- The handler name that a display name gives. -/
def handlerChars (s : List Char) : List Char :=
  ((Text.words s).flatMap titled).filter Text.isAlphanumeric

/-- The handler name that a display name gives. -/
def handlerName (s : String) : String := String.ofList (handlerChars s.toList)

/-- A letter or an underscore. -/
def startsIdentifier (c : Char) : Bool := Text.isLetter c || c = '_'

/-- A letter, a digit or an underscore. -/
def continuesIdentifier (c : Char) : Bool := Text.isAlphanumeric c || c = '_'

/-- The characters form an identifier of a C-like language. -/
def isIdentifierChars : List Char → Bool
  | [] => false
  | c :: rest => startsIdentifier c && rest.all continuesIdentifier

/-- The text is an identifier of a C-like language. -/
def isIdentifier (s : String) : Bool := isIdentifierChars s.toList

end RouteStubs
