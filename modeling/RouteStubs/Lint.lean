import RouteStubs.Endpoint
import RouteStubs.Text.Space
/-!
Checks on endpoints that stop nothing: what they find is reported as diagnostics.

`duplicateHandler` warns of each endpoint whose handler an earlier one has, and `emptyDescription` notes
each endpoint without a description.
-/

namespace RouteStubs

/-! ## §1 Diagnostics -/

/-- How much a diagnostic matters. -/
inductive Severity where
  | warning
  | info
  deriving DecidableEq, Repr

/-- The word for a severity. -/
def Severity.name : Severity → String
  | .warning => "warning"
  | .info => "info"

/-- Something that a check found. -/
structure Diagnostic where
  severity : Severity
  /-- The name of the check. -/
  lint : String
  message : String
  location : Option String := none
  deriving DecidableEq, Repr

namespace Diagnostic

/-- A diagnostic with a place, instead of any it has. -/
def located (d : Diagnostic) (location : String) : Diagnostic := { d with location := some location }

/-- The diagnostic is a warning. -/
def isWarning (d : Diagnostic) : Bool := d.severity == .warning

/-- A diagnostic on one line. -/
def row (d : Diagnostic) : String :=
  d.severity.name ++ "[" ++ d.lint ++ "]: " ++ d.message ++
    match d.location with
    | some location => " (at " ++ location ++ ")"
    | none => ""

end Diagnostic

/-! ## §2 Lints -/

/-- A check on a list of endpoints. -/
inductive Lint where
  | duplicateHandler
  | emptyDescription
  deriving DecidableEq, Repr

namespace Lint

/-- Every check, in the order in which they run. -/
def all : List Lint := [.duplicateHandler, .emptyDescription]

/-- The name of a check. -/
def name : Lint → String
  | .duplicateHandler => "duplicate-handler"
  | .emptyDescription => "empty-description"

/-- What a check is for. -/
def description : Lint → String
  | .duplicateHandler => "Detect handler names shared by more than one endpoint"
  | .emptyDescription => "Report endpoints without a description"

/-- The check with this name. -/
def ofName? (name : String) : Option Lint := all.find? (·.name == name)

/-- The warning about an endpoint whose handler an earlier one has. -/
def duplicate (first e : Endpoint) : Diagnostic :=
  ⟨.warning, name .duplicateHandler,
    "handler '" ++ e.handler ++ "' is generated for both " ++ first.location ++ " and " ++ e.location,
    some e.location⟩

/-- The warnings about endpoints, given the earlier ones of which each has a handler of its own. -/
def duplicatesAfter (earlier : List Endpoint) : List Endpoint → List Diagnostic
  | [] => []
  | e :: rest =>
    match earlier.find? (·.handler == e.handler) with
    | some first => duplicate first e :: duplicatesAfter earlier rest
    | none => duplicatesAfter (earlier ++ [e]) rest

/-- The description of an endpoint is white space only. -/
def isUndescribed (e : Endpoint) : Bool := (Text.trim e.description.toList).isEmpty

/-- The note about an endpoint without a description. -/
def undescribed (e : Endpoint) : Diagnostic :=
  ⟨.info, name .emptyDescription, "handler '" ++ e.handler ++ "' has no description",
    some e.location⟩

/-- What a check finds in endpoints. -/
def check (endpoints : List Endpoint) : Lint → List Diagnostic
  | .duplicateHandler => duplicatesAfter [] endpoints
  | .emptyDescription => (endpoints.filter isUndescribed).map undescribed

/-- What checks find, one after the other. -/
def runAll (lints : List Lint) (endpoints : List Endpoint) : List Diagnostic :=
  lints.flatMap (check endpoints)

/-- What all checks find. -/
def run (endpoints : List Endpoint) : List Diagnostic := runAll all endpoints

end Lint

end RouteStubs
