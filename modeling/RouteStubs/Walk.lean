import RouteStubs.Endpoint
import RouteStubs.HandlerName
/-!
From a tree of resources to its endpoints.

The tree is walked depth first: at each resource its own methods in the order of verbs, and then the
resources below it in the order of keys. A method without a display name stops the walk; what was found
before it stays found.
-/

namespace RouteStubs

/-- A method that has no display name, and so no handler. -/
structure MissingHandlerName where
  verb : Verb
  path : String
  deriving DecidableEq, Repr

/-- What is said of a method without a display name. -/
def MissingHandlerName.message (e : MissingHandlerName) : String :=
  "missing handler name: " ++ e.verb.name ++ " " ++ e.path ++ " has no displayName"

/-- The endpoints that a walk finds, and the method that stops it, if one does. -/
structure Walk where
  endpoints : List Endpoint
  stopped : Option MissingHandlerName
  deriving DecidableEq, Repr

namespace Walk

/-- A walk that finds nothing. -/
def nothing : Walk := ⟨[], none⟩

/-- One walk after another, which does not begin if the first is stopped. -/
def andThen (first second : Walk) : Walk :=
  match first.stopped with
  | some _ => first
  | none => ⟨first.endpoints ++ second.endpoints, second.stopped⟩

/-- Puts a parameter into its place by key, after those with the same key. -/
def insertByKey (p : Parameter) : List Parameter → List Parameter
  | [] => [p]
  | q :: rest => if p.key < q.key then p :: q :: rest else q :: insertByKey p rest

/-- The parameters by key; those with the same key keep their order. -/
def sortByKey (parameters : List Parameter) : List Parameter :=
  parameters.foldl (fun sorted p => insertByKey p sorted) []

/-- The walk over one method. -/
def ofMethod (path : String) (parameters : List Parameter) (m : Method) : Walk :=
  if m.displayName.isEmpty then ⟨[], some ⟨m.verb, path⟩⟩
  else
    ⟨[⟨m.verb, handlerName m.displayName, path, m.description, parameters,
      sortByKey (Parameter.ofDecls m.queryParameters)⟩], none⟩

/-- The walk over methods in order. -/
def ofMethods (path : String) (parameters : List Parameter) : List (Verb × Method) → Walk
  | [] => nothing
  | (_, m) :: rest => (ofMethod path parameters m).andThen (ofMethods path parameters rest)

mutual

/-- The walk over a resource at a path, with the parameters of the resources above it. -/
def ofResource (path : String) (inherited : List Parameter) : Resource → Walk
  | ⟨_, _, _, methods, uriParameters, children⟩ =>
    let parameters := inherited ++ Parameter.ofDecls uriParameters
    (ofMethods path parameters methods).andThen (ofResources path parameters children)
termination_by structural r => r

/-- The walk over the resources below a path. -/
def ofResources (path : String) (inherited : List Parameter) : List (String × Resource) → Walk
  | [] => nothing
  | (key, r) :: rest =>
    (ofResource (path ++ key) inherited r).andThen (ofResources path inherited rest)
termination_by structural rs => rs

end

/-- The walk over an API. -/
def ofApi (api : Api) : Walk := ofResources "" [] api.resources

/-- The endpoints, if the walk was not stopped. -/
def toExcept (w : Walk) : Except MissingHandlerName (List Endpoint) :=
  match w.stopped with
  | some e => .error e
  | none => .ok w.endpoints

end Walk

end RouteStubs
