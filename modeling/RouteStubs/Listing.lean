import RouteStubs.Endpoint
import RouteStubs.Json.Value
import RouteStubs.Text.Space
/-!
The endpoints of an API as a text: a table with one line for each, or JSON.
-/

namespace RouteStubs

/-- A parameter as JSON; a pattern is named only if there is one. -/
def Parameter.toJson (p : Parameter) : Json.Value :=
  let pattern := match p.pattern with
    | some pattern => [("pattern", .text pattern)]
    | none => []
  .record ([("key", .text p.key), ("type", .text p.type)] ++ pattern ++ [("required", .bool p.required)])

/-- An endpoint as JSON. -/
def Endpoint.toJson (e : Endpoint) : Json.Value :=
  .record
    [("verb", .text e.verb.name),
      ("handler", .text e.handler),
      ("path", .text e.path),
      ("description", .text e.description),
      ("uriParameters", .list (e.uriParameters.map Parameter.toJson)),
      ("queryParameters", .list (e.queryParameters.map Parameter.toJson))]

namespace Listing

/-- The table of endpoints. -/
def table (endpoints : List Endpoint) : String :=
  String.ofList (Text.unlines (endpoints.map (·.row.toList)))

/-- The endpoints as JSON, ended by a line feed. -/
def json (endpoints : List Endpoint) : String :=
  String.ofList (Json.Value.pretty (.list (endpoints.map Endpoint.toJson)) ++ ['\n'])

end Listing

end RouteStubs
