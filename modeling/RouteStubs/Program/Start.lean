import RouteStubs.Program.Shell
/-!
Starting a program by the text that names it.

A text with a slash is a path; any other is looked for where the system keeps its programs. No file of the
working directory is a program that the system would start.
-/

namespace RouteStubs.Program

open Files (Disk FileError)

/-- Where programs are looked for. -/
inductive SearchPath where
  | system
  | nowhere
  deriving DecidableEq, Repr

/-- Runs the shell: a script that is given as an argument, or one in a file. -/
def shell (args : List String) (d : Disk) : Result :=
  match args with
  | "-c" :: script :: parameters =>
    Shell.run script (if parameters.isEmpty then ["sh"] else parameters) d
  | ["-c"] => .failing 2 "sh: 0: -c requires an argument" d
  | file :: parameters =>
    match d.readText file with
    | .ok script => Shell.run script (file :: parameters) d
    | .error _ => .failing 2 ("sh: 0: cannot open " ++ file ++ ": No such file") d
  | [] => .silent 0 d

/-- Runs a program that the system keeps; nothing if it keeps none of that name. -/
def runKept? (name : String) (args : List String) (d : Disk) : Option Result :=
  if name = "sh" then some (shell args d) else if name = ":" then none else run? name args d

/-- The directories in which the system keeps its programs. -/
def systemDirectories : List String := ["/bin/", "/usr/bin/"]

/-- The name in a path to a program that the system keeps. -/
def keptName? (path : String) : Option String :=
  systemDirectories.findSome? fun directory =>
    if directory.toList.isPrefixOf path.toList then
      some (String.ofList (path.toList.drop directory.length))
    else none

/-- Starts a program with arguments: what it leaves behind, or why it cannot be started. -/
def start (search : SearchPath) (d : Disk) (program : String) (args : List String) :
    Except FileError Result :=
  if (program :: args).any fun text => text.toList.contains '\x00' then .error .nulInArgument
  else if program.isEmpty then .error .notFound
  else if program.toList.contains '/' then
    match (keptName? program).bind fun name => runKept? name args d with
    | some r => .ok r
    | none =>
      match d.locate program with
      | .ok _ => .error .permissionDenied
      | .error e => .error e
  else
    match search with
    | .nowhere => .error .notFound
    | .system =>
      match runKept? program args d with
      | some r => .ok r
      | none => .error (if Files.Disk.isLong program then .nameTooLong else .notFound)

end RouteStubs.Program
