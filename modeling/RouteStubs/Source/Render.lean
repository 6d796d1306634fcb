import RouteStubs.Source.Layout
import RouteStubs.Walk
/-!
From endpoints to a source file.

Handlers whose name cannot be that of a function are left out, with a reason; the file is made from the
others, in order.
-/

namespace RouteStubs.Source

/-- Why a handler is left out. -/
inductive SkipReason where
  | empty
  | notIdentifier (name : String)
  | reserved (name : String) (language : Language)
  deriving DecidableEq, Repr

/-- The words for a reason. -/
def SkipReason.message : SkipReason → String
  | .empty => "display name has no ASCII letters or digits"
  | .notIdentifier name => "'" ++ name ++ "' does not start with a letter"
  | .reserved name language => "'" ++ name ++ "' is reserved in " ++ language.name

/-- A handler that is left out, with the verb and path of its endpoint. -/
structure Skipped where
  handler : String
  location : String
  reason : SkipReason
  deriving DecidableEq, Repr

/-- Why a name cannot be that of a function, if it cannot. -/
def nameProblem? (language : Language) (name : String) : Option SkipReason :=
  if name.isEmpty then some .empty
  else if !isIdentifier name then some (.notIdentifier name)
  else if language.isReserved name then some (.reserved name language)
  else none

/-- The endpoint gets a stub. -/
def isUsable (language : Language) (e : Endpoint) : Bool :=
  (nameProblem? language e.handler).isNone

/-- The endpoint as one that is left out, if it is. -/
def skip? (language : Language) (e : Endpoint) : Option Skipped :=
  (nameProblem? language e.handler).map fun reason => ⟨e.handler, e.location, reason⟩

/-- A source file, and what went into it. -/
structure Rendered where
  lines : List Line
  /-- The number of endpoints, with and without a stub. -/
  endpoints : Nat
  /-- The handlers that have a stub, in the order of the file. -/
  handlers : List String
  skipped : List Skipped
  deriving DecidableEq, Repr

/-- The text of the file. -/
def Rendered.text (r : Rendered) : String := String.ofList (Text.unlines r.lines)

/-- The source file for endpoints. -/
def render (language : Language) (endpoints : List Endpoint) : Rendered :=
  let usable := endpoints.filter (isUsable language)
  ⟨fileLines language usable, endpoints.length, usable.map (·.handler),
    endpoints.filterMap (skip? language)⟩

/-- The source file for an API. -/
def renderApi (language : Language) (api : Api) : Except MissingHandlerName Rendered :=
  (Walk.ofApi api).toExcept.map (render language)

end RouteStubs.Source
