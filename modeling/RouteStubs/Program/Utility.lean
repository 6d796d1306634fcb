import RouteStubs.Files.Disk
import RouteStubs.Text.Space
/-!
Small programs that a formatter command may name, as functions on a file system.
-/

namespace RouteStubs.Program

open Files (Disk)

/-- How a program ends. -/
inductive ExitStatus where
  | code (n : Nat)
  | signal (n : Nat)
  deriving DecidableEq, Repr

/-- The names of the signals that end a program. -/
def signalNames : List (Nat × String) :=
  [(1, "SIGHUP"), (2, "SIGINT"), (3, "SIGQUIT"), (4, "SIGILL"), (6, "SIGABRT"), (8, "SIGFPE"),
    (9, "SIGKILL"), (10, "SIGUSR1"), (11, "SIGSEGV"), (12, "SIGUSR2"), (13, "SIGPIPE"),
    (14, "SIGALRM"), (15, "SIGTERM")]

namespace ExitStatus

/-- The program ended as it should. -/
def isSuccess (s : ExitStatus) : Bool := s == .code 0

/-- The words for the end of a program. -/
def message : ExitStatus → String
  | .code n => "exit status: " ++ toString n
  | .signal n =>
    "signal: " ++ toString n ++
      match signalNames.lookup n with
      | some name => " (" ++ name ++ ")"
      | none => ""

end ExitStatus

/-- What a program leaves behind. -/
structure Result where
  status : ExitStatus
  out : ByteArray
  err : ByteArray
  disk : Disk

namespace Result

/-- A program that only ends with a code. -/
def silent (n : Nat) (d : Disk) : Result := ⟨.code n, .empty, .empty, d⟩

/-- A program that prints bytes and ends well. -/
def printing (out : ByteArray) (d : Disk) : Result := ⟨.code 0, out, .empty, d⟩

/-- A program that complains and ends with a code. -/
def failing (n : Nat) (message : String) (d : Disk) : Result :=
  ⟨.code n, .empty, (message ++ "\n").toUTF8, d⟩

end Result

/-! ## §1 Printing -/

/-- Bytes from numbers. -/
def bytes (ns : List Nat) : ByteArray := ⟨(ns.map fun n => UInt8.ofNat n).toArray⟩

/-- A character as bytes. -/
def charBytes (c : Char) : ByteArray := (String.singleton c).toUTF8

/-- The value of an octal digit. -/
def octal? (c : Char) : Option Nat := if '0' ≤ c && c ≤ '7' then some (c.toNat - 48) else none

/-- The byte for the character after a backslash. -/
def escapeByte? (c : Char) : Option Nat :=
  if c = 'n' then some 10 else if c = 't' then some 9 else if c = 'r' then some 13
  else if c = 'a' then some 7 else if c = 'b' then some 8 else if c = 'f' then some 12
  else if c = 'v' then some 11 else if c = '\\' then some 92 else none

/-- A text with its backslash escapes replaced, and whether `\c` ended it. An octal code has up to three
digits: `code` is its value so far and `left` the number of digits that may follow. With `zero` a zero
stands in front of the digits. -/
def unescapeFrom (zero : Bool) (code left : Nat) : List Char → ByteArray × Bool
  | [] => (if left < 4 then bytes [code] else .empty, false)
  | c :: rest =>
    let digit := if left = 0 || left = 4 then none else octal? c
    match digit with
    | some n => unescapeFrom zero (8 * code + n) (left - 1) rest
    | none =>
      let before := if left < 4 then bytes [code] else .empty
      match c, rest with
      | '\\', 'c' :: _ => (before, true)
      | '\\', e :: rest =>
        match escapeByte? e, octal? e with
        | some b, _ =>
          let (after, ended) := unescapeFrom zero 0 4 rest
          (before ++ bytes [b] ++ after, ended)
        | none, some n =>
          if zero && n != 0 then
            let (after, ended) := unescapeFrom zero 0 4 rest
            (before ++ bytes [92] ++ charBytes e ++ after, ended)
          else
            let (after, ended) := unescapeFrom zero n (if zero then 3 else 2) rest
            (before ++ after, ended)
        | none, none =>
          let (after, ended) := unescapeFrom zero 0 4 rest
          (before ++ bytes [92] ++ charBytes e ++ after, ended)
      | c, rest =>
        let (after, ended) := unescapeFrom zero 0 4 rest
        (before ++ charBytes c ++ after, ended)

/-- A text with its backslash escapes replaced. -/
def unescape (zero : Bool) (s : List Char) : ByteArray × Bool := unescapeFrom zero 0 4 s

/-- What `echo` prints: its arguments with spaces between, and a line feed unless told otherwise. -/
def echo (args : List String) : ByteArray :=
  let (args, feed) := match args with
    | "-n" :: rest => (rest, false)
    | args => (args, true)
  let (text, ended) := unescape true (" ".intercalate args).toList
  if feed && !ended then text ++ bytes [10] else text

/-- The value of a decimal argument. -/
def decimalArg (s : String) : Int :=
  match s.toList with
  | '-' :: digits => -(digits.takeWhile Text.isDigit).foldl (fun n c => 10 * n + (c.toNat - 48 : Nat)) 0
  | digits => (digits.takeWhile Text.isDigit).foldl (fun n c => 10 * n + (c.toNat - 48 : Nat)) 0

/-- A part of a format: text to be printed, or a place for an argument. -/
inductive FormatPiece where
  | literal (text : List Char)
  | place (directive : Char)

/-- The parts of a format. -/
def formatPieces : List Char → List FormatPiece
  | [] => []
  | '%' :: '%' :: rest => .literal ['%'] :: formatPieces rest
  | '%' :: d :: rest => .place d :: formatPieces rest
  | c :: rest =>
    match formatPieces rest with
    | .literal text :: pieces => .literal (c :: text) :: pieces
    | pieces => .literal [c] :: pieces

/-- An argument at its place. -/
def formatArg (directive : Char) (arg : String) : ByteArray :=
  if directive = 'd' || directive = 'i' || directive = 'u' then (toString (decimalArg arg)).toUTF8
  else if directive = 'b' then (unescape true arg.toList).1
  else if directive = 'c' then (String.ofList (arg.toList.take 1)).toUTF8
  else arg.toUTF8

/-- What one pass over a format prints, and the arguments that it leaves. -/
def formatOnce : List FormatPiece → List String → ByteArray × List String
  | [], args => (.empty, args)
  | .literal text :: rest, args =>
    let (after, args) := formatOnce rest args
    ((unescape false text).1 ++ after, args)
  | .place d :: rest, args =>
    let (after, left) := formatOnce rest args.tail
    (formatArg d (args.head?.getD "") ++ after, left)

/-- What a format prints for groups of arguments, at most as many as `fuel` says. -/
def formatAll (format : List FormatPiece) : Nat → List String → ByteArray
  | 0, _ => .empty
  | fuel + 1, args =>
    let (out, rest) := formatOnce format args
    if rest.isEmpty || rest.length = args.length then out else out ++ formatAll format fuel rest

/-- What `printf` prints: the format for each group of arguments. -/
def printf (format : String) (args : List String) : ByteArray :=
  formatAll (formatPieces format.toList) (args.length + 1) args

/-! ## §2 Tests -/

/-- What `test` says of its arguments; nothing if it does not understand them. -/
def test? (d : Disk) : List String → Option Bool
  | [] => some false
  | [s] => some (!s.isEmpty)
  | "!" :: rest => (test? d rest).map (!·)
  | [op, s] =>
    if op = "-n" then some (!s.isEmpty)
    else if op = "-z" then some s.isEmpty
    else if op = "-e" || op = "-r" || op = "-w" then some (d.hasPath s)
    else if op = "-f" then
      some (match d.read s with | .ok _ => true | .error _ => false)
    else if op = "-d" then
      some (d.hasPath s && (match d.read s with | .ok _ => false | .error _ => true))
    else if op = "-s" then
      some (match d.read s with | .ok content => content.size != 0 | .error e => e == .isDirectory)
    else if op = "-x" then
      some (match d.read s with | .ok _ => false | .error e => e == .isDirectory)
    else none
  | [a, op, b] =>
    if op = "=" then some (a == b)
    else if op = "!=" then some (a != b)
    else if op = "-eq" then some (decimalArg a == decimalArg b)
    else if op = "-ne" then some (decimalArg a != decimalArg b)
    else if op = "-lt" then some (decimalArg a < decimalArg b)
    else if op = "-le" then some (decimalArg a ≤ decimalArg b)
    else if op = "-gt" then some (decimalArg b < decimalArg a)
    else if op = "-ge" then some (decimalArg b ≤ decimalArg a)
    else none
  | _ => none

/-! ## §3 Files -/

/-- Prints files one after the other. -/
def cat (d : Disk) : List String → Result
  | [] => .silent 0 d
  | path :: rest =>
    let after := cat d rest
    match d.read path with
    | .ok content => { after with out := content ++ after.out }
    | .error e =>
      let reason := ((e.message.splitOn " (os").head?).getD ""
      { after with
        status := .code 1
        err := ("cat: " ++ path ++ ": " ++ reason ++ "\n").toUTF8 ++ after.err }

/-- Removes files. -/
def rm (force : Bool) (d : Disk) : List String → Result
  | [] => .silent 0 d
  | path :: rest =>
    match d.locate path, d.read path with
    | .ok l, .ok _ => rm force (d.erase l) rest
    | _, _ =>
      let after := rm force d rest
      if force then after
      else
        { after with
          status := .code 1
          err := ("rm: cannot remove '" ++ path ++ "': No such file or directory\n").toUTF8 ++ after.err }

/-- Creates the files that are missing. -/
def touch (d : Disk) : List String → Result
  | [] => .silent 0 d
  | path :: rest =>
    if d.hasPath path then touch d rest
    else
      match d.put path .empty with
      | (.ok _, d) => touch d rest
      | (.error _, d) =>
        { touch d rest with
          status := .code 1
          err := ("touch: cannot touch '" ++ path ++ "'\n").toUTF8 }

/-- Runs a program by its name; nothing if there is none of that name. -/
def run? (name : String) (args : List String) (d : Disk) : Option Result :=
  if name = "true" || name = ":" then some (.silent 0 d)
  else if name = "false" then some (.silent 1 d)
  else if name = "echo" then some (.printing (echo args) d)
  else if name = "printf" then
    match args with
    | [] => some (.failing 2 "printf: usage: printf format [arg ...]" d)
    | format :: args => some (.printing (printf format args) d)
  else if name = "test" || name = "[" then
    let args := if name = "[" && args.getLast? = some "]" then args.dropLast else args
    match test? d args with
    | some b => some (.silent (if b then 0 else 1) d)
    | none => some (.failing 2 "test: unexpected operator" d)
  else if name = "cat" then some (cat d args)
  else if name = "rm" then
    some (rm (args.contains "-f") d (args.filter fun a => a != "-f" && a != "--"))
  else if name = "touch" then some (touch d args)
  else none

end RouteStubs.Program
