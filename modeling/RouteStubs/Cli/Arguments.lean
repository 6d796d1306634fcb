import RouteStubs.Language
/-!
The arguments of the command line.

Options are read from left to right, so the first fault in that order is the one reported, and a request
for the version or for help counts as soon as it is met. What options must not go together is looked at
last.
-/

namespace RouteStubs.Cli

/-! ## §1 Options -/

/-- An option with a value. -/
inductive Setting where
  | ramlFile
  | genFile
  | language
  | formatter
  deriving DecidableEq, Repr

/-- An option without a value. -/
inductive Switch where
  | dryRun
  | routes
  | json
  | skipExisting
  | noFormat
  | verbose
  | version
  | help
  deriving DecidableEq, Repr

namespace Setting

/-- Every option with a value. -/
def all : List Setting := [.ramlFile, .genFile, .language, .formatter]

/-- The name of an option, which follows two dashes. -/
def name : Setting → String
  | .ramlFile => "ramlfile"
  | .genFile => "genfile"
  | .language => "language"
  | .formatter => "formatter"

/-- The letter of an option, which follows one dash. -/
def letter? : Setting → Option Char
  | .language => some 'l'
  | _ => none

/-- The option with this name. -/
def ofName? (name : List Char) : Option Setting := all.find? (·.name.toList == name)

/-- The option with this letter. -/
def ofLetter? (c : Char) : Option Setting := all.find? (·.letter? == some c)

end Setting

namespace Switch

/-- Every option without a value. -/
def all : List Switch :=
  [.dryRun, .routes, .json, .skipExisting, .noFormat, .verbose, .version, .help]

/-- The name of an option, which follows two dashes. -/
def name : Switch → String
  | .dryRun => "dry-run"
  | .routes => "routes"
  | .json => "json"
  | .skipExisting => "skip-existing"
  | .noFormat => "no-fmt"
  | .verbose => "verbose"
  | .version => "version"
  | .help => "help"

/-- The letter of an option, which follows one dash. -/
def letter? : Switch → Option Char
  | .verbose => some 'v'
  | .version => some 'V'
  | .help => some 'h'
  | _ => none

/-- The option with this name. -/
def ofName? (name : List Char) : Option Switch := all.find? (·.name.toList == name)

/-- The option with this letter. -/
def ofLetter? (c : Char) : Option Switch := all.find? (·.letter? == some c)

end Switch

/-- What is wrong with arguments. -/
inductive ArgumentError where
  | unknown (argument : String)
  | valueMissing (option : Setting)
  | valueUnwanted (option : Switch)
  | valueWrong (option : Setting) (value reason : String)
  | repeated (name : String)
  | formatterUnwanted
  | routesMissing
  deriving DecidableEq, Repr

/-- The words for what is wrong. -/
def ArgumentError.message : ArgumentError → String
  | .unknown argument => "unexpected argument '" ++ argument ++ "' found"
  | .valueMissing option => "a value is required for '--" ++ option.name ++ "' but none was supplied"
  | .valueUnwanted option => "unexpected value for '--" ++ option.name ++ "' found; no more were expected"
  | .valueWrong option value reason =>
    "invalid value '" ++ value ++ "' for '--" ++ option.name ++ "': " ++ reason
  | .repeated name => "the argument '--" ++ name ++ "' cannot be used multiple times"
  | .formatterUnwanted => "the argument '--no-fmt' cannot be used with '--formatter'"
  | .routesMissing => "the argument '--json' requires '--routes'"

/-! ## §2 From arguments to options -/

/-- An option that arguments give, or the fault that ends their reading. -/
inductive Given where
  | switch (option : Switch)
  | setting (option : Setting) (value : String)
  | fault (e : ArgumentError)
  deriving DecidableEq, Repr

/-- The option in the text after two dashes; one with a value may wait for it. -/
def readName (text : List Char) : List Given × Option Setting :=
  let name := text.takeWhile (· != '=')
  let value? := match text.dropWhile (· != '=') with
    | _ :: value => some (String.ofList value)
    | [] => none
  match Setting.ofName? name, Switch.ofName? name, value? with
  | some option, _, some value => ([.setting option value], none)
  | some option, _, none => ([], some option)
  | none, some option, none => ([.switch option], none)
  | none, some option, some _ => ([.fault (.valueUnwanted option)], none)
  | none, none, _ => ([.fault (.unknown (String.ofList ('-' :: '-' :: text)))], none)

/-- The options in the letters after one dash. The rest of the letters is the value of an option that takes
one. -/
def readLetters : List Char → List Given × Option Setting
  | [] => ([], none)
  | c :: rest =>
    match Setting.ofLetter? c, Switch.ofLetter? c with
    | some option, _ =>
      match rest with
      | [] => ([], some option)
      | '=' :: value => ([.setting option (String.ofList value)], none)
      | value => ([.setting option (String.ofList value)], none)
    | none, some option =>
      let (given, waiting) := readLetters rest
      (.switch option :: given, waiting)
    | none, none => ([.fault (.unknown (String.ofList ['-', c]))], none)

/-- The options that arguments give, the first of which is the value of a waiting option. -/
def readArguments : Option Setting → List String → List Given
  | none, [] => []
  | some option, [] => [.fault (.valueMissing option)]
  | some option, argument :: rest =>
    match argument.toList with
    | '-' :: _ :: _ => [.fault (.valueMissing option)]
    | _ => .setting option argument :: readArguments none rest
  | none, argument :: rest =>
    match argument.toList with
    | ['-', '-'] => rest.head?.toList.map fun argument => .fault (.unknown argument)
    | '-' :: '-' :: text =>
      let (given, waiting) := readName text
      given ++ readArguments waiting rest
    | '-' :: c :: letters =>
      let (given, waiting) := readLetters (c :: letters)
      given ++ readArguments waiting rest
    | _ => [.fault (.unknown argument)]

/-! ## §3 From options to a request -/

/-- What a run is asked to do. -/
structure Arguments where
  ramlFile? : Option String := none
  genFile? : Option String := none
  language? : Option Language := none
  formatter? : Option String := none
  dryRun : Bool := false
  routes : Bool := false
  json : Bool := false
  skipExisting : Bool := false
  noFormat : Bool := false
  verbosity : Nat := 0
  deriving DecidableEq, Repr

namespace Arguments

/-- The file with the API description. -/
def ramlFile (a : Arguments) : String := a.ramlFile?.getD "api.raml"

/-- The file to generate. -/
def genFile (a : Arguments) : String := a.genFile?.getD "handlers_gen.go"

/-- The language to generate: the one that is named, or else that of the file. -/
def language (a : Arguments) : Language := a.language?.getD (.ofPath a.genFile)

/-- A value for an option, unless it has one. -/
def once {α : Type} (option : Setting) (old : Option α) (value : α) : Except ArgumentError (Option α) :=
  if old.isSome then .error (.repeated option.name) else .ok (some value)

/-- The path that a value names; there is none without a character. -/
def pathValue (option : Setting) (value : String) : Except ArgumentError String :=
  if value.isEmpty then .error (.valueMissing option) else .ok value

/-- The language that a value names. -/
def languageValue (value : String) : Except ArgumentError Language :=
  match Language.ofText? value with
  | some language => .ok language
  | none => .error (.valueWrong .language value (Language.unknownMessage value))

/-- The arguments with an option set to a value. -/
def set (a : Arguments) (option : Setting) (value : String) : Except ArgumentError Arguments :=
  match option with
  | .ramlFile => do
    return { a with ramlFile? := ← once option a.ramlFile? (← pathValue option value) }
  | .genFile => do
    return { a with genFile? := ← once option a.genFile? (← pathValue option value) }
  | .language => do
    return { a with language? := ← once option a.language? (← languageValue value) }
  | .formatter => do return { a with formatter? := ← once option a.formatter? value }

/-- Turns a switch on, unless it is on. -/
def onceOn (option : Switch) (old : Bool) : Except ArgumentError Bool :=
  if old then .error (.repeated option.name) else .ok true

/-- The arguments with a switch turned on. -/
def switchOn (a : Arguments) (option : Switch) : Except ArgumentError Arguments :=
  match option with
  | .dryRun => do return { a with dryRun := ← onceOn option a.dryRun }
  | .routes => do return { a with routes := ← onceOn option a.routes }
  | .json => do return { a with json := ← onceOn option a.json }
  | .skipExisting => do return { a with skipExisting := ← onceOn option a.skipExisting }
  | .noFormat => do return { a with noFormat := ← onceOn option a.noFormat }
  | .verbose => .ok { a with verbosity := a.verbosity + 1 }
  | .version | .help => .ok a

/-- The arguments, if they may go together. -/
def consistent (a : Arguments) : Except ArgumentError Arguments :=
  if a.json && !a.routes then .error .routesMissing
  else if a.formatter?.isSome && a.noFormat then .error .formatterUnwanted
  else .ok a

end Arguments

/-- What the program is asked for. -/
inductive Request where
  | run (a : Arguments)
  | version
  | help
  deriving DecidableEq, Repr

namespace Request

/-- The request that options make, given what earlier ones have set. -/
def ofGiven (a : Arguments) : List Given → Except ArgumentError Request
  | [] => a.consistent.map .run
  | .fault e :: _ => .error e
  | .switch .version :: _ => .ok .version
  | .switch .help :: _ => .ok .help
  | .switch option :: rest => (a.switchOn option).bind fun a => ofGiven a rest
  | .setting option value :: rest => (a.set option value).bind fun a => ofGiven a rest

/-- The request that arguments make. -/
def ofArguments (arguments : List String) : Except ArgumentError Request :=
  ofGiven {} (readArguments none arguments)

end Request

end RouteStubs.Cli
