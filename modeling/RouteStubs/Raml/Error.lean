import RouteStubs.Files.Disk
import RouteStubs.Raml.Body
import RouteStubs.Raml.Location
import RouteStubs.Yaml.Document
/-!
Why an API description cannot be read, and the report on it.

Three things can go wrong: the file cannot be read, its text has no value, or the value is not an API
description. A report has the message with its cause and without, a code, the place in the source with a
label, and advice if there is any.
-/

namespace RouteStubs.Raml

open Yaml (Value)

/-- The mark that a description starts with. -/
def header : List Char := "#%RAML".toList

/-- What a value lacks that would make it an API description. -/
inductive Problem where
  | headerMissing
  | rootNotMapping
  | titleMissing
  | keyNotText (key : Value)
  | fieldNotScalar (field : String)
  | resourceNotMapping (path : String)
  | methodWrong (verb : Verb) (path : String) (cause : BodyError)
  | uriParametersWrong (path : String) (cause : BodyError)

/-- The words for a problem. -/
def Problem.message : Problem → String
  | .headerMissing => "missing '" ++ String.ofList header ++ "' header on the first line"
  | .rootNotMapping => "RAML document must be a mapping of top-level keys"
  | .titleMissing => "missing required field 'title'"
  | .keyNotText key => "expected a string key, found " ++ String.ofList key.inspect
  | .fieldNotScalar field => "field '" ++ field ++ "' must be a scalar value"
  | .resourceNotMapping path => "resource '" ++ path ++ "' must be a mapping"
  | .methodWrong verb path cause =>
    "invalid " ++ verb.name ++ " method on resource '" ++ path ++ "': " ++ cause.message
  | .uriParametersWrong path cause =>
    "invalid uriParameters on resource '" ++ path ++ "': " ++ cause.message

/-- Why an API description cannot be read. -/
inductive Error where
  | unreadable (path : String) (cause : Files.FileError)
  | unparsed (cause : Yaml.ReadError)
  | invalid (problem : Problem) (span : Option Span)

/-- The kinds of error that a report tells apart. -/
inductive ReportKind where
  | io
  | parse
  | validation
  deriving DecidableEq, Repr

/-- What is reported on an error. -/
structure Report where
  kind : ReportKind
  /-- The error with its cause. -/
  message : String
  /-- The error without its cause. -/
  summary : String
  span : Option Span
  deriving DecidableEq, Repr

namespace Report

/-- The code of an error, for looking it up. -/
def code (r : Report) : String :=
  match r.kind with
  | .io => "ramlapi::io_error"
  | .parse => "ramlapi::parse_error"
  | .validation => "ramlapi::validation_error"

/-- What to do about an error. -/
def help (r : Report) : Option String :=
  match r.kind with
  | .io => some "pass the RAML document with --ramlfile <path>"
  | _ => none

/-- The label at the place of an error. -/
def label (r : Report) : String :=
  match r.kind with
  | .parse => "parse error here"
  | _ => r.message

/-- The report that a document does not hold what it should. -/
def validation (message : String) (span : Option Span) : Report :=
  ⟨.validation, message, message, span⟩

/-- The report that a document has no value. -/
def parse (cause : Yaml.ReadError) : Report :=
  let summary := "failed to parse RAML document"
  ⟨.parse, summary ++ ": " ++ String.ofList cause.message, summary,
    cause.mark?.map fun mark => ⟨mark.index, 1⟩⟩

end Report

/-- The report on an error. -/
def Error.report : Error → Report
  | .unreadable path cause =>
    let summary := "failed to read '" ++ path ++ "'"
    ⟨.io, summary ++ ": " ++ cause.message, summary, none⟩
  | .unparsed cause => .parse cause
  | .invalid problem span => .validation problem.message span

end RouteStubs.Raml
