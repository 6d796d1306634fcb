import RouteStubs.Cli.Run
/-!
The program on a real file system.

What to do is decided by `Cli.Request` and `Cli.Plan`; here it is only done. This layer starts no other
program, so a generated file is left as it was rendered.
-/

namespace RouteStubs.Cli

open Files (FileError)
open Files.Disk (Overwrite Written)

/-- The error that the system reports, by its number where there is one. -/
def systemError (e : IO.Error) : FileError :=
  match e with
  | .noFileOrDirectory .. => .notFound
  | .alreadyExists .. => .alreadyExists
  | .permissionDenied .. => .permissionDenied
  | .inappropriateType _ 20 _ => .notDirectory
  | .inappropriateType _ 21 _ => .isDirectory
  | .invalidArgument _ 36 _ => .nameTooLong
  | e => .other (toString e)

/-- Does something with files, and keeps the error if it fails. -/
def attempt {α : Type} (action : IO α) : IO (Except FileError α) := do
  match ← action.toBaseIO with
  | .ok a => return .ok a
  | .error e => return .error (systemError e)

/-- The text of the file at a path. -/
def readFile (path : String) : IO (Except FileError String) := do
  match ← attempt (IO.FS.readBinFile path) with
  | .error e => return .error e
  | .ok content =>
    match String.fromUTF8? content with
    | some text => return .ok text
    | none => return .error .notUtf8

/-- There is a file or directory at a path. -/
def isThere (path : String) : IO Bool := do
  match ← attempt (IO.FS.realPath path) with
  | .ok _ => return true
  | .error _ => return false

/-- Creates the directory that a path stands in. -/
def createParent (path : String) : IO Unit := do
  let p := Files.Path.ofText path
  match p.parentSteps? with
  | none | some [] => return
  | some steps => IO.FS.createDirAll ((if p.absolute then "/" else "") ++ "/".intercalate steps)

/-- Writes a file under a rule. -/
def writeFile (path content : String) (rule : Overwrite) : IO (Except FileError Written) := do
  if rule = .ifMissing && (← isThere path) then return .ok .skipped
  attempt do
    createParent path
    IO.FS.writeBinFile path content.toUTF8
    return .written

/-- Generates a file. -/
def Job.perform (job : Job) : IO (Except Generate.Error Generate.Report) := do
  let r := Source.render job.language job.endpoints
  match ← writeFile job.path r.text job.options.overwrite with
  | .error e => return .error (.write job.path e)
  | .ok outcome => return .ok ⟨r.endpoints, r.handlers, r.skipped, outcome, false⟩

/-- Prints the reason for a failure and gives the exit code. -/
def Failure.exit (e : Failure) : IO UInt32 := do
  IO.eprintln ("error: " ++ e.message)
  return e.exitCode.toUInt32

/-- Carries out a plan. -/
def Plan.perform (verbosity : Nat) (plan : Plan) : IO UInt32 := do
  let remark (notes : List Note) : IO Unit :=
    notes.forM fun note => IO.eprintln (note.line verbosity)
  remark plan.notes
  IO.print plan.out
  match plan.next with
  | .finish => return 0
  | .fail e => e.exit
  | .generate job =>
    match ← job.perform with
    | .error e => (Failure.generate e).exit
    | .ok r =>
      remark (Note.ofReport job.path r)
      return 0

/-- Runs the program with arguments and gives the exit code. -/
def runProgram (arguments : List String) : IO UInt32 := do
  match Request.ofArguments arguments with
  | .error e => (Failure.arguments e).exit
  | .ok .version =>
    IO.println (programName ++ " " ++ version)
    return 0
  | .ok .help =>
    help.forM fun line => IO.println line
    return 0
  | .ok (.run a) => (Plan.ofContent a (← readFile a.ramlFile)).perform a.verbosity

end RouteStubs.Cli

/-- Runs the program with its arguments. -/
def main (arguments : List String) : IO UInt32 := RouteStubs.Cli.runProgram arguments
