import RouteStubs.Formatter
import RouteStubs.Source.Render
/-!
Generating a file: from endpoints to a source file on disk.

The file is rendered, written under its overwrite rule, and formatted. Nothing is touched before the walk
over the API has succeeded, and a formatter that fails leaves the file as it is.
-/

namespace RouteStubs.Generate

open Files (Disk FileError)
open Files.Disk (Overwrite Written)
open Program (SearchPath)

/-- How a file is generated. -/
structure Options where
  overwrite : Overwrite := .always
  /-- Run a formatter over the file. -/
  format : Bool := true
  /-- A formatter instead of that of the language. -/
  formatter : Option Formatter := none
  deriving DecidableEq, Repr

/-- The formatter to run, if any. -/
def Options.formatterFor? (o : Options) (language : Language) : Option Formatter :=
  if o.format then some (o.formatter.getD (.ofLanguage language)) else none

/-- What has been generated. -/
structure Report where
  endpoints : Nat
  handlers : List String
  skipped : List Source.Skipped
  written : Written
  /-- A formatter ran over the file and ended well. -/
  formatted : Bool
  deriving DecidableEq, Repr

/-- Why nothing has been generated. -/
inductive Error where
  | walk (e : MissingHandlerName)
  | write (path : String) (reason : FileError)
  deriving DecidableEq, Repr

/-- The words for an error, the outermost first. -/
def Error.chain : Error → List String
  | .walk e => [e.message]
  | .write path reason => ["failed to write " ++ path, reason.message]

/-- Runs a formatter, if there is one, over a file: whether it ended well. -/
def format (formatter? : Option Formatter) (search : SearchPath) (d : Disk) (path : String) :
    Bool × Disk :=
  match formatter? with
  | none => (false, d)
  | some f =>
    match f.run search d path with
    | (.ok (), d) => (true, d)
    | (.error _, d) => (false, d)

/-- Writes a rendered file and formats it. -/
def ofRendered (r : Source.Rendered) (formatter? : Option Formatter) (rule : Overwrite)
    (search : SearchPath) (d : Disk) (path : String) : Except Error Report × Disk :=
  match d.write path r.text rule with
  | (.error e, d) => (.error (.write path e), d)
  | (.ok .skipped, d) => (.ok ⟨r.endpoints, r.handlers, r.skipped, .skipped, false⟩, d)
  | (.ok .written, d) =>
    let (formatted, d) := format formatter? search d path
    (.ok ⟨r.endpoints, r.handlers, r.skipped, .written, formatted⟩, d)

/-- Generates the file for endpoints. -/
def ofEndpoints (language : Language) (endpoints : List Endpoint) (options : Options)
    (search : SearchPath) (d : Disk) (path : String) : Except Error Report × Disk :=
  ofRendered (Source.render language endpoints) (options.formatterFor? language) options.overwrite
    search d path

/-- Generates the file for an API. -/
def ofApi (language : Language) (api : Api) (options : Options) (search : SearchPath) (d : Disk)
    (path : String) : Except Error Report × Disk :=
  match (Walk.ofApi api).toExcept with
  | .error e => (.error (.walk e), d)
  | .ok endpoints => ofEndpoints language endpoints options search d path

end RouteStubs.Generate
