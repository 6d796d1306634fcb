import RouteStubs.Files.Path
import RouteStubs.Text.Case
/-!
The languages that stubs are generated in.
-/

namespace RouteStubs

/-- A language to generate. -/
inductive Language where
  | go
  | rust
  deriving DecidableEq, Repr, Inhabited

namespace Language

/-- Every language. -/
def all : List Language := [.go, .rust]

/-- The language that is generated where none is named. -/
def standard : Language := .go

/-- The name of a language. -/
def name : Language → String
  | .go => "go"
  | .rust => "rust"

/-- The extension of files in a language. -/
def extension : Language → String
  | .go => "go"
  | .rust => "rs"

/-- The language that a text names, in any letter case, by its name, its other name or its extension. -/
def ofText? (s : String) : Option Language :=
  let folded := String.ofList (Text.lowercase s.toList)
  if folded = "go" || folded = "golang" then some .go
  else if folded = "rust" || folded = "rs" then some .rust
  else none

/-- What is said of a text that names no language. -/
def unknownMessage (s : String) : String := "unknown language '" ++ s ++ "', expected 'go' or 'rust'"

/-- The language of an output file, by its extension. -/
def ofPath (path : String) : Language :=
  if (Files.Path.ofText path).extension? = some "rs" then .rust else standard

/-- The words that a handler may not be named: keywords, and names that a generated file uses itself. -/
def reservedWords : Language → List String
  | .go =>
    ["break", "case", "chan", "const", "continue", "default", "defer", "else", "fallthrough", "for",
      "func", "go", "goto", "if", "import", "interface", "map", "package", "range", "return", "select",
      "struct", "switch", "type", "var", "RouteMap", "json", "http", "main", "init", "string"]
  | .rust =>
    ["as", "async", "await", "break", "const", "continue", "crate", "dyn", "else", "enum", "extern",
      "false", "fn", "for", "if", "impl", "in", "let", "loop", "match", "mod", "move", "mut", "pub",
      "ref", "return", "self", "Self", "static", "struct", "super", "trait", "true", "type", "unsafe",
      "use", "where", "while", "abstract", "become", "box", "do", "final", "macro", "override", "priv",
      "try", "typeof", "unsized", "virtual", "yield", "route_map"]

/-- A handler may not have this name. -/
def isReserved (language : Language) (name : String) : Bool := language.reservedWords.contains name

end Language

end RouteStubs
