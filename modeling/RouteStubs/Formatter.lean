import RouteStubs.Language
import RouteStubs.Program.Start
import RouteStubs.Text.Decode
/-!
Formatters: programs that are run over a written file.

A formatter is named by a command, words with white space between them. It is started with the file as its
last argument, and it fails if it cannot be started or does not end well.
-/

namespace RouteStubs

open Files (Disk FileError)
open Program (ExitStatus SearchPath)

/-- A program to run over a file, and the arguments in front of the file. -/
structure Formatter where
  program : String
  args : List String := []
  deriving DecidableEq, Repr

/-- Why a file has not been formatted. -/
inductive FormatError where
  | notStarted (program : String) (reason : FileError)
  | failed (command : String) (status : ExitStatus) (output : String)
  deriving DecidableEq, Repr

namespace FormatError

/-- What went wrong. -/
def message : FormatError → String
  | .notStarted program reason => "failed to run " ++ program ++ ": " ++ reason.message
  | .failed command status _ => command ++ " exited with " ++ status.message

/-- What the formatter printed. -/
def output : FormatError → String
  | .notStarted _ _ => ""
  | .failed _ _ output => output

/-- The error with what the formatter printed. -/
def report (e : FormatError) : String :=
  if e.output.isEmpty then e.message else e.message ++ "\n\nOutput:\n" ++ e.output

end FormatError

namespace Formatter

/-- The formatter that a command names; none if there is only white space. -/
def ofCommand? (command : String) : Option Formatter :=
  match (Text.words command.toList).map String.ofList with
  | [] => none
  | program :: args => some ⟨program, args⟩

/-- The words of a formatter with a space between them. -/
def command (f : Formatter) : String := " ".intercalate (f.program :: f.args)

/-- The formatter for a language. -/
def ofLanguage : Language → Formatter
  | .go => ⟨"gofmt", ["-w"]⟩
  | .rust => ⟨"rustfmt", ["--edition", "2021"]⟩

/-- What a program printed, as text: first its complaints. -/
def printed (r : Program.Result) : String :=
  String.ofList (Text.trim (Text.decode r.err ++ Text.decode r.out))

/-- Runs a formatter over the file at a path. -/
def run (f : Formatter) (search : SearchPath) (d : Disk) (path : String) :
    Except FormatError Unit × Disk :=
  match Program.start search d f.program (f.args ++ [path]) with
  | .error e => (.error (.notStarted f.program e), d)
  | .ok r =>
    if r.status.isSuccess then (.ok (), r.disk)
    else (.error (.failed f.command r.status (printed r)), r.disk)

end Formatter

end RouteStubs
