import RouteStubs.Text.Utf8
/-!
Paths of files, as texts and as steps.

A path is split at slashes. The system follows every step, also `.` and `..`; the parent, the name and the
extension of a path are taken from the steps without those `.` that change nothing.
-/

namespace RouteStubs.Files

/-- A path: whether it starts at the root, its steps, and whether a slash ends it. -/
structure Path where
  absolute : Bool
  steps : List String
  slashed : Bool
  deriving DecidableEq, Repr

namespace Path

/-- The pieces of a text between slashes. -/
def pieces : List Char → List (List Char)
  | [] => [[]]
  | c :: rest => if c = '/' then [] :: pieces rest else (pieces rest).modifyHead (c :: ·)

/-- The path that a text writes. Several slashes count as one. -/
def ofText (s : String) : Path where
  absolute := s.toList.head? == some '/'
  steps := ((pieces s.toList).filter (!·.isEmpty)).map String.ofList
  slashed := s.toList.getLast? == some '/'

/-- The steps that matter: without `.`, except where a relative path starts with it. -/
def plainSteps (p : Path) : List String :=
  match p.steps with
  | [] => []
  | first :: rest =>
    let rest := rest.filter (· != ".")
    if p.absolute && first == "." then rest else first :: rest

/-- The steps to the directory of what the path names; none for a path without steps. -/
def parentSteps? (p : Path) : Option (List String) :=
  if p.plainSteps.isEmpty then none else some p.plainSteps.dropLast

/-- The number of bytes of a text up to the end of these steps, which are among its pieces from byte `offset` on.
`last` is where the step in front of them ends. -/
def sizeFrom (last offset : Nat) : List (List Char) → List String → Nat
  | piece :: rest, step :: steps =>
    let stop := offset + Text.byteLength piece
    if piece = step.toList then sizeFrom stop (stop + 1) rest steps
    else sizeFrom last (stop + 1) rest (step :: steps)
  | _, _ => last

/-- The number of bytes of the text of a path up to the end of these steps of it. Slashes and steps `.` between them
count, even where they change nothing. -/
def sizeUpTo (text : String) (steps : List String) : Nat := sizeFrom 0 0 (pieces text.toList) steps

/-- The name of what the path leads to, if it ends with a name. -/
def name? (p : Path) : Option String :=
  match p.plainSteps.getLast? with
  | some step => if step == "." || step == ".." then none else some step
  | none => none

/-- The text before and after the last point. -/
def splitAtLastDot : List Char → Option (List Char × List Char)
  | [] => none
  | c :: rest =>
    match splitAtLastDot rest with
    | some (before, after) => some (c :: before, after)
    | none => if c = '.' then some ([], rest) else none

/-- What follows the last point of the name. A point in front of the name does not count. -/
def extension? (p : Path) : Option String :=
  match p.name?.bind fun name => splitAtLastDot name.toList with
  | some (_ :: _, after) => some (String.ofList after)
  | _ => none

end Path

end RouteStubs.Files
