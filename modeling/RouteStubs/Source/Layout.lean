import RouteStubs.Endpoint
import RouteStubs.Language
import RouteStubs.Source.Comment
/-!
The lines of a generated file.

In every language a file is a header, the start of a route map, a line for each handler, the end of the
map, and then a stub for each handler: a comment with the path, the verb and the description, and a
function that answers with its name.
-/

namespace RouteStubs.Source

/-- A line of source code, without the line feed that ends it. -/
abbrev Line := List Char

/-- A comment line: the mark, and a space and the text if there is any. -/
def commentLine (mark : Line) (text : Line) : Line :=
  if text.isEmpty then mark else mark ++ ' ' :: text

/-! ## §1 Go -/

/-- The first lines of a Go file. -/
def goHeader : List Line :=
  ["// Code generated by ramlgen. Handler bodies are placeholders.".toList,
    [],
    "package main".toList,
    [],
    "import (".toList,
    "\t\"encoding/json\"".toList,
    "\t\"net/http\"".toList,
    ")".toList]

/-- The lines that start the route map of a Go file. -/
def goMapStart : List Line :=
  [[],
    "// RouteMap links handler names from the RAML document to handler funcs.".toList,
    "var RouteMap = map[string]http.HandlerFunc\x7b".toList]

/-- The line of the route map for a handler in a Go file. -/
def goMapEntry (name : Line) : Line :=
  "\t\"".toList ++ name ++ "\": ".toList ++ name ++ [',']

/-- The stub for a handler in a Go file. -/
def goStub (name verb path : Line) (doc : List Line) : List Line :=
  [[],
    "// ".toList ++ name ++ " handles the URI ".toList ++ path ++ " and the action ".toList ++ verb ++
      ['.']] ++
  doc.map (commentLine "//".toList) ++
  ["func ".toList ++ name ++ "(w http.ResponseWriter, r *http.Request) \x7b".toList,
    "\tjson, _ := json.Marshal(map[string]string\x7b".toList,
    "\t\t\"message\": \"".toList ++ name ++ verb ++ "\",".toList,
    "\t\x7d)".toList,
    "\tw.Write(json)".toList,
    "\x7d".toList]

/-! ## §2 Rust -/

/-- The first lines of a Rust file. -/
def rustHeader : List Line :=
  ["//! Code generated by ramlgen. Handler bodies are placeholders.".toList,
    [],
    "#![allow(non_snake_case)]".toList,
    [],
    "use std::collections::HashMap;".toList,
    [],
    "/// Signature shared by every generated handler.".toList,
    "pub type Handler = fn(&HashMap<String, String>) -> String;".toList]

/-- The lines that start the route map of a Rust file. -/
def rustMapStart : List Line :=
  [[],
    "/// Links handler names from the RAML document to handler functions.".toList,
    "pub fn route_map() -> HashMap<&'static str, Handler> \x7b".toList,
    "    let mut routes: HashMap<&'static str, Handler> = HashMap::new();".toList]

/-- The line of the route map for a handler in a Rust file. -/
def rustMapEntry (name : Line) : Line :=
  "    routes.insert(\"".toList ++ name ++ "\", ".toList ++ name ++ ");".toList

/-- The stub for a handler in a Rust file. -/
def rustStub (name verb path : Line) (doc : List Line) : List Line :=
  [[],
    "/// Handles the URI \x60".toList ++ path ++ "\x60 and the action ".toList ++ verb ++ ['.']] ++
  doc.map (commentLine "///".toList) ++
  ["pub fn ".toList ++ name ++ "(_params: &HashMap<String, String>) -> String \x7b".toList,
    "    String::from(r#\"\x7b\"message\":\"".toList ++ name ++ verb ++ "\"\x7d\"#)".toList,
    "\x7d".toList]

/-! ## §3 Every language -/

/-- The first lines of a file. -/
def header : Language → List Line
  | .go => goHeader
  | .rust => rustHeader

/-- The lines that start the route map. -/
def mapStart : Language → List Line
  | .go => goMapStart
  | .rust => rustMapStart

/-- The line of the route map for a handler. -/
def mapEntry : Language → Line → Line
  | .go => goMapEntry
  | .rust => rustMapEntry

/-- The lines that end the route map. -/
def mapEnd : Language → List Line
  | .go => ["\x7d".toList]
  | .rust => ["    routes".toList, "\x7d".toList]

/-- The stub for a handler with a name, a verb, a path and a description in lines. -/
def stubLines : Language → Line → Line → Line → List Line → List Line
  | .go => goStub
  | .rust => rustStub

/-- The stub for an endpoint. -/
def stub (language : Language) (e : Endpoint) : List Line :=
  stubLines language e.handler.toList e.verb.name.toList (onOneLine e.path.toList)
    (docLines e.description.toList)

/-- The file for endpoints. -/
def fileLines (language : Language) (endpoints : List Endpoint) : List Line :=
  header language ++ mapStart language ++
    endpoints.map (fun e => mapEntry language e.handler.toList) ++ mapEnd language ++
    endpoints.flatMap (stub language)

end RouteStubs.Source
