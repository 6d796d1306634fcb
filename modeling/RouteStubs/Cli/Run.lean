import RouteStubs.Cli.Arguments
import RouteStubs.Generate
import RouteStubs.Lint
import RouteStubs.Listing
import RouteStubs.Raml.File
/-!
A run of the program.

A run reads the API description, plans what to print and what to generate, and carries the plan out. The
plan does not touch files: what changes on disk is only what its job generates.
-/

namespace RouteStubs.Cli

open Files (Disk FileError)
open Program (SearchPath)

/-! ## §1 What a run says -/

/-- The name of the program. -/
def programName : String := "ramlgen"

/-- The version of the program. -/
def version : String := "0.3.0"

/-- A remark on the progress of a run. -/
inductive Note where
  | processing (path : String)
  | found (d : Diagnostic)
  | skipped (s : Source.Skipped)
  | created (path : String)
  | untouched (path : String)
  deriving DecidableEq, Repr

/-- The start of a log line, which names its source in a talkative run. -/
def logStart (level : String) (verbosity : Nat) : String :=
  if verbosity = 0 then level ++ " " else level ++ " " ++ programName ++ "::cli: "

/-- A remark as a line. -/
def Note.line (verbosity : Nat) : Note → String
  | .processing path => logStart "INFO" verbosity ++ "Processing API spec for " ++ path
  | .found d => logStart "WARN" verbosity ++ d.row
  | .skipped s => "skipped " ++ s.location ++ " (" ++ s.handler ++ "): " ++ s.reason.message
  | .created path => logStart "INFO" verbosity ++ "Created handlers in " ++ path
  | .untouched path => logStart "INFO" verbosity ++ path ++ " already exists, leaving it untouched"

/-- Why a run fails. -/
inductive Failure where
  | arguments (e : ArgumentError)
  | document (e : Raml.Error)
  | walk (e : MissingHandlerName)
  | formatterBlank
  | generate (e : Generate.Error)

namespace Failure

/-- The exit code of a run that fails. -/
def exitCode : Failure → Nat
  | .arguments _ => 2
  | _ => 1

/-- The words for a failure. -/
def message : Failure → String
  | .arguments e => e.message
  | .document e => e.report.message
  | .walk e => e.message
  | .formatterBlank => "--formatter must name a program"
  | .generate e => ": ".intercalate ("Failed to generate handlers" :: e.chain)

end Failure

/-! ## §2 Plans -/

/-- A file to generate. -/
structure Job where
  path : String
  language : Language
  endpoints : List Endpoint
  options : Generate.Options
  deriving DecidableEq, Repr

/-- How a run goes on after it has printed something. -/
inductive Next where
  | finish
  | fail (e : Failure)
  | generate (job : Job)

/-- What a run prints, remarks, and does then. -/
structure Plan where
  out : String := ""
  notes : List Note := []
  next : Next

/-- A plan that only fails. -/
def Plan.failing (e : Failure) : Plan := { next := .fail e }

/-- A plan that only prints. -/
def Plan.printing (out : String) : Plan := { out, next := .finish }

/-- The formatter that arguments name, if they name one. -/
def Arguments.formatter (a : Arguments) : Except Failure (Option Formatter) :=
  match a.formatter? with
  | none => .ok none
  | some command =>
    match Formatter.ofCommand? command with
    | some f => .ok (some f)
    | none => .error .formatterBlank

/-- How arguments want a file to be generated. -/
def Arguments.options (a : Arguments) : Except Failure Generate.Options :=
  a.formatter.map fun formatter =>
    ⟨if a.skipExisting then .ifMissing else .always, !a.noFormat, formatter⟩

namespace Plan

/-- The plan to list endpoints. -/
def listing (a : Arguments) (endpoints : List Endpoint) : Plan :=
  .printing (if a.json then Listing.json endpoints else Listing.table endpoints)

/-- The remarks on endpoints: what the lints warn of. -/
def warnings (endpoints : List Endpoint) : List Note :=
  ((Lint.run endpoints).filter (·.isWarning)).map .found

/-- The plan to generate a file for endpoints, or to print it. -/
def generating (a : Arguments) (endpoints : List Endpoint) : Plan :=
  let notes := .processing a.ramlFile :: warnings endpoints
  if a.dryRun then { out := (Source.render a.language endpoints).text, notes, next := .finish }
  else
    match a.options with
    | .error e => { notes, next := .fail e }
    | .ok options => { notes, next := .generate ⟨a.genFile, a.language, endpoints, options⟩ }

/-- The plan for an API. -/
def ofApi (a : Arguments) (api : Api) : Plan :=
  match (Walk.ofApi api).toExcept with
  | .ok endpoints => if a.routes then listing a endpoints else generating a endpoints
  | .error e =>
    { notes := if a.routes then [] else [.processing a.ramlFile], next := .fail (.walk e) }

/-- The plan for what reading the API description gives. -/
def ofContent (a : Arguments) (content : Except FileError String) : Plan :=
  match Raml.File.ofContent a.ramlFile content with
  | .ok file => ofApi a file.api
  | .error e => .failing (.document e)

end Plan

/-! ## §3 Help -/

/-- What the program says about itself and its options. -/
def help : List String :=
  ["Generate handler stubs and a route map from a RAML file",
    "",
    "Usage: " ++ programName ++ " [OPTIONS]",
    "",
    "Options:",
    "      --ramlfile <PATH>      RAML file to parse [default: api.raml]",
    "      --genfile <PATH>       Filename to use for output [default: handlers_gen.go]",
    "  -l, --language <LANGUAGE>  Target language [go, rust] (defaults to the genfile extension)",
    "      --dry-run              Print the generated source instead of writing it",
    "      --routes               Print the route table and exit",
    "      --json                 Print the route table as JSON",
    "      --skip-existing        Leave the genfile alone if it already exists",
    "      --no-fmt               Do not run a formatter over the written file",
    "      --formatter <COMMAND>  Formatter command to run instead of the language default (e.g. \"gofmt -s -w\")",
    "  -v, --verbose...           Increase verbosity (-v, -vv)",
    "  -h, --help                 Print help",
    "  -V, --version              Print version"]

/-! ## §4 Runs -/

/-- The remarks on a file that has been generated at a path. -/
def Note.ofReport (path : String) (r : Generate.Report) : List Note :=
  r.skipped.map .skipped ++
    [match r.written with
      | .written => .created path
      | .skipped => .untouched path]

/-- What a run leaves behind. -/
structure Outcome where
  out : String
  /-- The remarks as lines. -/
  lines : List String
  failure : Option Failure
  disk : Disk

namespace Outcome

/-- The exit code of a run. -/
def exitCode (o : Outcome) : Nat :=
  match o.failure with
  | none => 0
  | some e => e.exitCode

/-- Carries a plan out. -/
def ofPlan (verbosity : Nat) (search : SearchPath) (d : Disk) (plan : Plan) : Outcome :=
  let lines (notes : List Note) := notes.map (Note.line verbosity)
  match plan.next with
  | .finish => ⟨plan.out, lines plan.notes, none, d⟩
  | .fail e => ⟨plan.out, lines plan.notes, some e, d⟩
  | .generate job =>
    match Generate.ofEndpoints job.language job.endpoints job.options search d job.path with
    | (.error e, d) => ⟨plan.out, lines plan.notes, some (.generate e), d⟩
    | (.ok r, d) => ⟨plan.out, lines (plan.notes ++ Note.ofReport job.path r), none, d⟩

/-- Runs the program with options. -/
def ofRequest (search : SearchPath) (d : Disk) : Request → Outcome
  | .version => ⟨programName ++ " " ++ version ++ "\n", [], none, d⟩
  | .help => ⟨String.ofList (Text.unlines (help.map (·.toList))), [], none, d⟩
  | .run a => ofPlan a.verbosity search d (Plan.ofContent a (d.readText a.ramlFile))

/-- Runs the program with arguments. -/
def ofArguments (search : SearchPath) (d : Disk) (arguments : List String) : Outcome :=
  match Request.ofArguments arguments with
  | .error e => ⟨"", [], some (.arguments e), d⟩
  | .ok request => ofRequest search d request

end Outcome

end RouteStubs.Cli
