import RouteStubs.Api
/-!
Endpoints: the methods of an API, each with its full path and all parameters that bear on it.
-/

namespace RouteStubs

/-- A parameter of an endpoint. -/
structure Parameter where
  key : String
  type : String := "string"
  pattern : Option String := none
  required : Bool := false
  deriving DecidableEq, Repr, Inhabited

/-- The parameter that a declaration gives. -/
def Parameter.ofDecl (name : String) (decl : ParameterDecl) : Parameter :=
  ⟨name, decl.type, decl.pattern, decl.required⟩

/-- The parameters that declarations give, in order. -/
def Parameter.ofDecls (decls : ParameterDecls) : List Parameter :=
  decls.map fun (name, decl) => ofDecl name decl

/-- A verb on a path, and the handler for it. -/
structure Endpoint where
  verb : Verb
  handler : String
  path : String
  description : String := ""
  /-- The parameters of the resources on the path, from the root on. -/
  uriParameters : List Parameter := []
  /-- The parameters of the method, by key. -/
  queryParameters : List Parameter := []
  deriving DecidableEq, Repr, Inhabited

namespace Endpoint

/-- The first URI parameter with this key. -/
def uriParameter? (e : Endpoint) (key : String) : Option Parameter :=
  e.uriParameters.find? (·.key == key)

/-- The first query parameter with this key. -/
def queryParameter? (e : Endpoint) (key : String) : Option Parameter :=
  e.queryParameters.find? (·.key == key)

/-- The verb and the path. -/
def location (e : Endpoint) : String := e.verb.name ++ " " ++ e.path

/-- The endpoint on one line of a route table. -/
def row (e : Endpoint) : String :=
  "verb: " ++ e.verb.name ++ " handler: " ++ e.handler ++ " path: " ++ e.path

end Endpoint

end RouteStubs
