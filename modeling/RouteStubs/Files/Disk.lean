import RouteStubs.Files.Path
/-!
A file system with a working directory, and writing a generated file in it.

Every file and directory is an entry at its location, the list of names that leads to it from the root.
A path is followed step by step from the working directory, so that `..` and `.` mean what they mean to
the system: a step needs the directory before it to be there. Writing a file creates the directories on
the way to it first.

Links and permissions are left out. There is one way to each entry, `..` leads to the directory that the entry stands
in, and whatever is there can be read, written to and replaced.
-/

namespace RouteStubs.Files

/-! ## §1 Entries -/

/-- Why an operation on files fails. -/
inductive FileError where
  | notFound
  | permissionDenied
  | alreadyExists
  | notDirectory
  | isDirectory
  | nameTooLong
  | nulInName
  | nulInArgument
  | notUtf8
  /-- Anything else that a system reports, in its own words. -/
  | other (message : String)
  deriving DecidableEq, Repr

/-- The words for an error. -/
def FileError.message : FileError → String
  | .notFound => "No such file or directory (os error 2)"
  | .permissionDenied => "Permission denied (os error 13)"
  | .alreadyExists => "File exists (os error 17)"
  | .notDirectory => "Not a directory (os error 20)"
  | .isDirectory => "Is a directory (os error 21)"
  | .nameTooLong => "File name too long (os error 36)"
  | .nulInName => "file name contained an unexpected NUL byte"
  | .nulInArgument => "nul byte found in provided data"
  | .notUtf8 => "stream did not contain valid UTF-8"
  | .other message => message

/-- The names that lead to a file or directory from the root. -/
abbrev Location := List String

/-- What stands at a location. -/
inductive Entry where
  | directory
  | file (content : ByteArray)

instance : DecidableEq Entry
  | .directory, .directory => isTrue rfl
  | .directory, .file _ => isFalse nofun
  | .file _, .directory => isFalse nofun
  | .file a, .file b => @decidable_of_iff _ (a = b) (by simp) (ByteArray.instDecidableEq a b)

/-- A file system and the location of the working directory. -/
structure Disk where
  entries : List (Location × Entry)
  home : Location

namespace Disk

/-- A file system with an empty working directory. -/
def empty : Disk := ⟨[(["work"], .directory)], ["work"]⟩

/-- What stands at a location; the root is a directory. -/
def entry? (d : Disk) (l : Location) : Option Entry :=
  if l.isEmpty then some .directory else d.entries.lookup l

/-- Sets what stands at a location. -/
def set (d : Disk) (l : Location) (e : Entry) : Disk :=
  { d with entries := (l, e) :: d.entries.filter fun entry => entry.1 != l }

/-- Takes away what stands at a location. -/
def erase (d : Disk) (l : Location) : Disk :=
  { d with entries := d.entries.filter fun entry => entry.1 != l }

/-! ## §2 Following paths -/

/-- The greatest length of a name in bytes. -/
def maxName : Nat := 255

/-- The greatest length of a path in bytes. -/
def maxPath : Nat := 4095

/-- A name that is too long for the system. -/
def isLong (name : String) : Bool := maxName < name.utf8ByteSize

/-- The location that one step leads to. -/
def follow (d : Disk) (l : Location) (step : String) : Except FileError Location :=
  match d.entry? l with
  | some .directory =>
    if step = "." then .ok l
    else if step = ".." then .ok l.dropLast
    else if isLong step then .error .nameTooLong
    else if (d.entry? (l ++ [step])).isSome then .ok (l ++ [step])
    else .error .notFound
  | _ => .error .notDirectory

/-- The location that steps lead to. -/
def followAll (d : Disk) : Location → List String → Except FileError Location
  | l, [] => .ok l
  | l, step :: rest => (d.follow l step).bind fun l => followAll d l rest

/-- Where a path begins. -/
def start (d : Disk) (p : Path) : Location := if p.absolute then [] else d.home

/-- The location of a directory that steps lead to. -/
def followToDirectory (d : Disk) (l : Location) (steps : List String) :
    Except FileError Location := do
  let l ← d.followAll l steps
  match d.entry? l with
  | some .directory => return l
  | _ => throw .notDirectory

/-- What the system refuses in the text of a path, before it looks at files. -/
def textProblem? (path : String) : Option FileError :=
  if path.toList.contains '\x00' then some .nulInName
  else if path.isEmpty then some .notFound
  else if maxPath < path.utf8ByteSize then some .nameTooLong
  else none

/-- The location that a path leads to. Where a slash ends the path it has to be a directory. -/
def locate (d : Disk) (path : String) : Except FileError Location :=
  match textProblem? path with
  | some e => .error e
  | none =>
    let p := Path.ofText path
    if p.slashed then d.followToDirectory (d.start p) p.steps
    else d.followAll (d.start p) p.steps

/-- There is a file or directory at a path. -/
def hasPath (d : Disk) (path : String) : Bool :=
  match d.locate path with
  | .ok _ => true
  | .error _ => false

/-- The content of the file at a path. -/
def read (d : Disk) (path : String) : Except FileError ByteArray := do
  match d.entry? (← d.locate path) with
  | some (.file content) => return content
  | some .directory => throw .isDirectory
  | none => throw .notFound

/-- The text of the file at a path. -/
def readText (d : Disk) (path : String) : Except FileError String := do
  match String.fromUTF8? (← d.read path) with
  | some text => return text
  | none => throw .notUtf8

/-! ## §3 Creating -/

/-- The location that a path leads to if a file may be put there: a name in a directory, at which there
is no directory. -/
def locateToWrite (d : Disk) (path : String) : Except FileError Location :=
  match textProblem? path with
  | some e => .error e
  | none => do
    let p := Path.ofText path
    match p.steps.getLast? with
    | none => throw .isDirectory
    | some last =>
      let parent ← d.followToDirectory (d.start p) p.steps.dropLast
      if p.slashed || last = "." || last = ".." then throw .isDirectory
      if isLong last then throw .nameTooLong
      match d.entry? (parent ++ [last]) with
      | some .directory => throw .isDirectory
      | _ => return parent ++ [last]

/-- What the system refuses in steps whose text takes so many bytes, before it looks at files. -/
def stepsProblem? (steps : List String) (size : Nat) : Option FileError :=
  if steps.any fun step => step.toList.contains '\x00' then some .nulInName
  else if maxPath < size then some .nameTooLong
  else none

/-- The location at which steps create a directory. Their text takes so many bytes. -/
def locateNew (d : Disk) (l : Location) (steps : List String) (size : Nat) : Except FileError Location :=
  match stepsProblem? steps size with
  | some e => .error e
  | none => do
    match steps.getLast? with
    | none => throw .alreadyExists
    | some last =>
      let parent ← d.followToDirectory l steps.dropLast
      if last = "." || last = ".." then throw .alreadyExists
      if isLong last then throw .nameTooLong
      if (d.entry? (parent ++ [last])).isSome then throw .alreadyExists
      return parent ++ [last]

/-- The steps lead to a directory. Their text takes so many bytes. -/
def hasDirectory (d : Disk) (l : Location) (steps : List String) (size : Nat) : Bool :=
  match stepsProblem? steps size, d.followToDirectory l steps with
  | none, .ok _ => true
  | _, _ => false

/-- Creates the directory that steps lead to and those before it, the steps being given last first. A
directory that is there already is no error. `size` is the number of bytes that the text of steps takes. -/
def createDirectories (d : Disk) (size : List String → Nat) (l : Location) :
    List String → Except FileError Unit × Disk
  | [] => (.ok (), d)
  | step :: before =>
    let steps := (step :: before).reverse
    match d.locateNew l steps (size steps) with
    | .ok new => (.ok (), d.set new .directory)
    | .error .notFound =>
      match createDirectories d size l before with
      | (.error e, d) => (.error e, d)
      | (.ok (), d) =>
        match d.locateNew l steps (size steps) with
        | .ok new => (.ok (), d.set new .directory)
        | .error e => (if d.hasDirectory l steps (size steps) then .ok () else .error e, d)
    | .error e => (if d.hasDirectory l steps (size steps) then .ok () else .error e, d)

/-- Creates the directory that a path stands in. -/
def createParent (d : Disk) (path : String) : Except FileError Unit × Disk :=
  let p := Path.ofText path
  match p.parentSteps? with
  | none => (.ok (), d)
  | some steps => d.createDirectories (Path.sizeUpTo path) (d.start p) steps.reverse

/-- Creates the directory at a path, and those before it. -/
def createDirectory (d : Disk) (path : String) : Except FileError Unit × Disk :=
  let p := Path.ofText path
  d.createDirectories (Path.sizeUpTo path) (d.start p) p.plainSteps.reverse

/-- Puts content into the file at a path. -/
def put (d : Disk) (path : String) (content : ByteArray) : Except FileError Unit × Disk :=
  match d.locateToWrite path with
  | .ok l => (.ok (), d.set l (.file content))
  | .error e => (.error e, d)

/-! ## §4 Generated files -/

/-- What becomes of a file that is there already. -/
inductive Overwrite where
  | always
  | ifMissing
  deriving DecidableEq, Repr

/-- What has become of a file. -/
inductive Written where
  | written
  | skipped
  deriving DecidableEq, Repr

/-- Writes a file, and the directories on the way to it first. With `ifMissing` nothing is done where
something is there already. -/
def write (d : Disk) (path content : String) (rule : Overwrite) : Except FileError Written × Disk :=
  if rule = .ifMissing && d.hasPath path then (.ok .skipped, d)
  else
    match d.createParent path with
    | (.error e, d) => (.error e, d)
    | (.ok (), d) =>
      match d.put path content.toUTF8 with
      | (.error e, d) => (.error e, d)
      | (.ok (), d) => (.ok .written, d)

end Disk

end RouteStubs.Files
