import RouteStubs.Program.Utility
/-!
A small command language: the part of the POSIX shell that formatter commands are written in.

A script is a list of simple commands, joined by `;`, `&&` and `||`. Words may be quoted and may contain
parameters; output may be sent to files or to the other stream. A script that is anything more is refused
as a whole.
-/

namespace RouteStubs.Program.Shell

open Files (Disk)

/-! ## §1 Scripts -/

/-- A part of a word: characters as they are, or a parameter; in quotes or bare. -/
inductive Piece where
  | literal (c : Char) (quoted : Bool)
  | parameter (name : Char) (quoted : Bool)
  | nothing
  deriving DecidableEq, Repr

/-- A word of a command before its parameters are replaced. -/
abbrev Word := List Piece

/-- What a script is made of. -/
inductive Token where
  | word (w : Word)
  | next
  | ifSuccess
  | ifFailure
  | output (stream : Nat) (append : Bool)
  | sameAs (stream target : Nat)
  | input
  deriving DecidableEq, Repr

/-- Within what the reader of a script is. -/
inductive Mode where
  | bare
  | single
  | double
  | variable (quoted : Bool)
  | comment
  deriving DecidableEq, Repr

/-- A character that names a parameter. -/
def isParameter (c : Char) : Bool :=
  Text.isDigit c || c = '#' || c = '@' || c = '*' || c = '?' || c = '$'

/-- A character of a variable's name. -/
def isNameChar (c : Char) : Bool := Text.isAlphanumeric c || c = '_'

/-- Puts the open word in front of tokens, if there is one. Its pieces are kept last first. -/
def close (open? : Option Word) (tokens : List Token) : List Token :=
  match open? with
  | some w => .word w.reverse :: tokens
  | none => tokens

/-- Adds a piece to the open word. -/
def extend (open? : Option Word) (p : Piece) : Option Word := some (p :: open?.getD [])

/-- The stream that the open word names in front of a redirection, and the word if it is none. -/
def streamOf (open? : Option Word) : Option Nat × Option Word :=
  match open? with
  | some [.literal c false] => if Text.isDigit c then (some (c.toNat - 48), none) else (none, open?)
  | _ => (none, open?)

/-- The tokens of a script; nothing if it is not understood. -/
def tokens : Mode → Option Word → List Char → Option (List Token)
  | .bare, w, [] => some (close w [])
  | .comment, _, [] => some []
  | .variable _, w, [] => some (close w [])
  | .single, _, [] => none
  | .double, _, [] => none
  | .comment, _, c :: rest =>
    if c = '\n' then (tokens .bare none rest).map (.next :: ·) else tokens .comment none rest
  | .single, w, c :: rest =>
    if c = '\'' then tokens .bare w rest else tokens .single (extend w (.literal c true)) rest
  | .double, w, '$' :: '{' :: c :: '}' :: rest =>
    if isParameter c then tokens .double (extend w (.parameter c true)) rest else none
  | .double, w, '$' :: c :: rest =>
    if isParameter c then tokens .double (extend w (.parameter c true)) rest
    else if isNameChar c then tokens (.variable true) w rest
    else if c = '(' then none
    else tokens .double (extend w (.literal '$' true)) (c :: rest)
  | .double, w, '\\' :: c :: rest =>
    if c = '$' || c = '\x60' || c = '"' || c = '\\' then
      tokens .double (extend w (.literal c true)) rest
    else tokens .double (extend (extend w (.literal '\\' true)) (.literal c true)) rest
  | .double, w, c :: rest =>
    if c = '"' then tokens .bare w rest
    else if c = '\x60' then none
    else tokens .double (extend w (.literal c true)) rest
  | .variable quoted, w, c :: rest =>
    if isNameChar c then tokens (.variable quoted) w rest
    else if quoted then
      if c = '"' then tokens .bare w rest
      else if c = '$' || c = '\\' || c = '\x60' then none
      else tokens .double (extend w (.literal c true)) rest
    else if c = ' ' || c = '\t' then (tokens .bare none rest).map (close w)
    else if c = '\n' || c = ';' then (tokens .bare none rest).map fun ts => close w (.next :: ts)
    else none
  | .bare, w, ' ' :: rest => (tokens .bare none rest).map (close w)
  | .bare, w, '\t' :: rest => (tokens .bare none rest).map (close w)
  | .bare, w, '\n' :: rest => (tokens .bare none rest).map fun ts => close w (.next :: ts)
  | .bare, w, ';' :: rest => (tokens .bare none rest).map fun ts => close w (.next :: ts)
  | .bare, w, '&' :: '&' :: rest => (tokens .bare none rest).map fun ts => close w (.ifSuccess :: ts)
  | .bare, w, '|' :: '|' :: rest => (tokens .bare none rest).map fun ts => close w (.ifFailure :: ts)
  | .bare, w, '>' :: '>' :: rest =>
    let (stream, w) := streamOf w
    (tokens .bare none rest).map fun ts => close w (.output (stream.getD 1) true :: ts)
  | .bare, w, '>' :: '&' :: c :: rest =>
    let (stream, w) := streamOf w
    if Text.isDigit c then
      (tokens .bare none rest).map fun ts => close w (.sameAs (stream.getD 1) (c.toNat - 48) :: ts)
    else none
  | .bare, w, '>' :: rest =>
    let (stream, w) := streamOf w
    (tokens .bare none rest).map fun ts => close w (.output (stream.getD 1) false :: ts)
  | .bare, w, '<' :: rest => (tokens .bare none rest).map fun ts => close w (.input :: ts)
  | .bare, w, '\'' :: rest => tokens .single (extend w .nothing) rest
  | .bare, w, '"' :: rest => tokens .double (extend w .nothing) rest
  | .bare, w, '\\' :: c :: rest => tokens .bare (extend w (.literal c true)) rest
  | .bare, w, '$' :: '{' :: c :: '}' :: rest =>
    if isParameter c then tokens .bare (extend w (.parameter c false)) rest else none
  | .bare, w, '$' :: c :: rest =>
    if isParameter c then tokens .bare (extend w (.parameter c false)) rest
    else if isNameChar c then tokens (.variable false) w rest
    else none
  | .bare, w, c :: rest =>
    if c = '#' && w.isNone then tokens .comment none rest
    else if c = '|' || c = '&' || c = '(' || c = ')' || c = '\x60' || c = '{' || c = '}' || c = '*' ||
        c = '$' then none
    else tokens .bare (extend w (.literal c false)) rest

/-- When a command runs. -/
inductive Condition where
  | always
  | success
  | failure
  deriving DecidableEq, Repr

/-- A change of where a command reads or writes. -/
inductive Redirection where
  | output (stream : Nat) (append : Bool) (target : Word)
  | sameAs (stream target : Nat)
  | input (source : Word)
  deriving DecidableEq, Repr

/-- One command of a script. -/
structure Command where
  condition : Condition
  words : List Word
  redirections : List Redirection
  deriving DecidableEq, Repr

/-- Puts a complete command in front of commands, unless there is nothing in it. -/
def Command.cons (c : Command) (rest : List Command) : List Command :=
  if c.words.isEmpty && c.redirections.isEmpty then rest else c :: rest

/-- The commands of a script, the first of which is open. -/
def commands (c : Command) : List Token → Option (List Command)
  | [] => some (c.cons [])
  | .word w :: rest => commands { c with words := c.words ++ [w] } rest
  | .next :: rest => (commands ⟨.always, [], []⟩ rest).map c.cons
  | .ifSuccess :: rest => (commands ⟨.success, [], []⟩ rest).map c.cons
  | .ifFailure :: rest => (commands ⟨.failure, [], []⟩ rest).map c.cons
  | .output stream append :: .word w :: rest =>
    commands { c with redirections := c.redirections ++ [.output stream append w] } rest
  | .sameAs stream target :: rest =>
    commands { c with redirections := c.redirections ++ [.sameAs stream target] } rest
  | .input :: .word w :: rest =>
    commands { c with redirections := c.redirections ++ [.input w] } rest
  | _ => none

/-- The commands that a script writes. -/
def parse? (script : String) : Option (List Command) :=
  (tokens .bare none script.toList).bind (commands ⟨.always, [], []⟩)

/-! ## §2 Words -/

/-- The state of a run. -/
structure State where
  disk : Disk
  out : ByteArray
  err : ByteArray
  status : Nat
  /-- The name of the script and its arguments. -/
  parameters : List String
  ended : Option ExitStatus

/-- The number by which a script knows itself. -/
def processNumber : String := "4242"

/-- The value of a parameter. -/
def State.parameter (s : State) (name : Char) : String :=
  if name = '#' then toString (s.parameters.length - 1)
  else if name = '@' || name = '*' then " ".intercalate s.parameters.tail
  else if name = '?' then toString s.status
  else if name = '$' then processNumber
  else (s.parameters[name.toNat - 48]?).getD ""

/-- Splits characters into fields: those that were not quoted separate at white space. -/
def fields : List (Option (Char × Bool)) → Option (List Char) → List (List Char)
  | [], w => w.toList.map List.reverse
  | none :: rest, w => fields rest (some (w.getD []))
  | some (c, quoted) :: rest, w =>
    if !quoted && (c = ' ' || c = '\t' || c = '\n') then
      w.toList.map List.reverse ++ fields rest none
    else fields rest (some (c :: w.getD []))

/-- The arguments that a word becomes. -/
def State.expand (s : State) (w : Word) : List String :=
  if w = [.nothing, .parameter '@' true] then s.parameters.tail
  else
    let chars := w.flatMap fun p => match p with
      | .literal c _ => [some (c, true)]
      | .parameter name quoted => (s.parameter name).toList.map fun c => some (c, quoted)
      | .nothing => [none]
    (fields chars none).map String.ofList

/-! ## §3 Runs -/

/-- Where output goes. -/
inductive Sink where
  | output
  | errors
  | file (path : String)
  | nowhere
  deriving DecidableEq, Repr

/-- Adds bytes to the file at a path. -/
def append (d : Disk) (path : String) (content : ByteArray) : Disk :=
  let old := match d.read path with
    | .ok old => old
    | .error _ => .empty
  (d.put path (old ++ content)).2

/-- Sends bytes where they go. -/
def State.send (s : State) (sink : Sink) (content : ByteArray) : State :=
  match sink with
  | .output => { s with out := s.out ++ content }
  | .errors => { s with err := s.err ++ content }
  | .file path => { s with disk := append s.disk path content }
  | .nowhere => s

/-- Opens what redirections name: the state, and where the two streams go; `false` if one fails. -/
def State.redirect (s : State) (out err : Sink) : List Redirection → State × Sink × Sink × Bool
  | [] => (s, out, err, true)
  | .sameAs stream target :: rest =>
    let sink := if target = 1 then out else if target = 2 then err else .nowhere
    if stream = 1 then s.redirect sink err rest
    else if stream = 2 then s.redirect out sink rest
    else s.redirect out err rest
  | .input _ :: rest => s.redirect out err rest
  | .output stream keep target :: rest =>
    let path := " ".intercalate (s.expand target)
    if path = "/dev/null" then
      if stream = 1 then s.redirect .nowhere err rest else s.redirect out .nowhere rest
    else
      let content := match keep, s.disk.read path with
        | true, .ok old => old
        | _, _ => .empty
      match s.disk.put path content with
      | (.ok _, disk) =>
        let s := { s with disk }
        if stream = 1 then s.redirect (.file path) err rest else s.redirect out (.file path) rest
      | (.error _, _) =>
        ({ s with err := s.err ++ ("sh: 1: cannot create " ++ path ++ "\n").toUTF8 }, out, err, false)

/-- The signal that arguments of `kill` name. -/
def signalOf : List String → Option Nat
  | [] => none
  | "-s" :: name :: _ => (signalNames.find? fun s => s.2 = name || s.2 = "SIG" ++ name).map (·.1)
  | arg :: _ =>
    match arg.toList with
    | '-' :: name =>
      if name.all Text.isDigit then some (decimalArg (String.ofList name)).toNat
      else
        let name := String.ofList name
        (signalNames.find? fun s => s.2 = name || s.2 = "SIG" ++ name).map (·.1)
    | _ => some 15

/-- Runs a command whose arguments and streams are settled. -/
def State.execute (s : State) (out err : Sink) : List String → State
  | [] => { s with status := 0 }
  | "exit" :: args =>
    let status := match args with
      | [] => s.status
      | arg :: _ => (decimalArg arg % 256).toNat
    { s with status, ended := some (.code status) }
  | "kill" :: args =>
    if args.getLast? = some processNumber then
      { s with ended := some (.signal ((signalOf args).getD 15)) }
    else { s with status := 1 }
  | name :: args =>
    match run? name args s.disk with
    | none => { s.send err ("sh: 1: " ++ name ++ ": not found\n").toUTF8 with status := 127 }
    | some r =>
      let s := ({ s with disk := r.disk }.send out r.out).send err r.err
      match r.status with
      | .code n => { s with status := n }
      | .signal n => { s with status := 128 + n }

/-- Runs one command. -/
def State.step (s : State) (c : Command) : State :=
  let wanted := match c.condition with
    | .always => true
    | .success => s.status == 0
    | .failure => s.status != 0
  if s.ended.isSome || !wanted then s
  else
    let (s, out, err, opened) := s.redirect .output .errors c.redirections
    if opened then
      match c.words.flatMap s.expand with
      | "!" :: args =>
        let s := s.execute out err args
        { s with status := if s.status = 0 then 1 else 0 }
      | args => s.execute out err args
    else { s with status := 2 }

/-- Runs a script with its name and arguments. -/
def run (script : String) (parameters : List String) (d : Disk) : Result :=
  match parse? script with
  | none => .failing 2 "sh: 1: Syntax error" d
  | some commands =>
    let s := commands.foldl State.step ⟨d, .empty, .empty, 0, parameters, none⟩
    ⟨s.ended.getD (.code s.status), s.out, s.err, s.disk⟩

end RouteStubs.Program.Shell
