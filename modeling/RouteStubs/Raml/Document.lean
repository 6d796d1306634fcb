import RouteStubs.Raml.Error
import RouteStubs.Text.Space
/-!
From the text of an API description to the API.

The first line has to carry the header. The rest is read as a value and then as an API: a mapping with a
title, and a resource under every key that starts with a slash. Of a resource its names, its URI
parameters, its methods and the resources below it are read. Keys that are not known are passed over. The
first entry that is wrong, in the order of the document, is the error.
-/

namespace RouteStubs.Raml

open Yaml (Value)

/-! ## §1 Header -/

/-- The text without byte order marks in front. -/
def withoutMarks (text : List Char) : List Char := text.dropWhile (· == '\ufeff')

/-- The first line of a description. -/
def firstLine (text : List Char) : List Char :=
  (Text.lines (withoutMarks text)).head?.getD []

/-- The first line carries the header, after white space. -/
def hasHeader (text : List Char) : Bool := header.isPrefixOf (Text.trimStart (firstLine text))

/-! ## §2 Values -/

/-- A problem at the end of a way through a document. -/
structure Fault where
  problem : Problem
  path : List String

/-- A key starts with a slash, and so names a resource. -/
def isResourceKey (key : String) : Bool := key.toList.head? == some '/'

/-- The path of the resource that a way through a document leads to. -/
def resourcePath (path : List String) : String := String.join (path.filter isResourceKey)

/-- The key that a value is, behind any tags. -/
def readKey (path : List String) (key : Value) : Except Fault String :=
  match key.text? with
  | some s => .ok s
  | none => .error ⟨.keyNotText key, path⟩

/-- The text of a field: a text, a number or a boolean as it is written. -/
def readScalar (path : List String) (field : String) : Value → Except Fault String
  | .text s => .ok s
  | .number n => .ok (String.ofList n.text)
  | .bool b => .ok (toString b)
  | _ => .error ⟨.fieldNotScalar field, path ++ [field]⟩

/-- What a key in a resource declares. -/
inductive Member where
  | displayName
  | description
  | uriParameters
  | child
  | method (verb : Verb)
  | unknown
  deriving DecidableEq, Repr

/-- What a key in a resource declares, by its text. -/
def Member.ofKey (key : String) : Member :=
  if key = "displayName" then .displayName
  else if key = "description" then .description
  else if key = "uriParameters" then .uriParameters
  else if isResourceKey key then .child
  else
    match Verb.ofKey? key with
    | some verb => .method verb
    | none => .unknown

mutual

/-- The resource that a value declares at the end of a way; nothing declares an empty one. -/
def readResource (path : List String) (segment : String) : Value → Except Fault Resource
  | .null => .ok (.empty segment)
  | .mapping entries => readMembers path (.empty segment) entries
  | _ => .error ⟨.resourceNotMapping (resourcePath path), path⟩
termination_by structural v => v

/-- Reads the entries of a resource, into what has been read of it. -/
def readMembers (path : List String) (r : Resource) : List (Value × Value) → Except Fault Resource
  | [] => .ok r
  | (k, v) :: rest => do
    let key ← readKey path k
    match Member.ofKey key with
    | .displayName =>
      let s ← readScalar path key v
      readMembers path { r with displayName := some s } rest
    | .description =>
      let s ← readScalar path key v
      readMembers path { r with description := some s } rest
    | .uriParameters =>
      match readParameters true v with
      | .error cause => throw ⟨.uriParametersWrong (resourcePath path) cause, path ++ [key]⟩
      | .ok decls => readMembers path { r with uriParameters := decls } rest
    | .child =>
      let child ← readResource (path ++ [key]) key v
      readMembers path (r.addChildAt key child) rest
    | .method verb =>
      match readMethod verb v with
      | .error cause => throw ⟨.methodWrong verb (resourcePath path) cause, path ++ [key]⟩
      | .ok m => readMembers path (r.addMethod m) rest
    | .unknown => readMembers path r rest
termination_by structural es => es

end

/-- Reads the resources at the top, into what has been read of the API. -/
def readTop (api : Api) : List (Value × Value) → Except Fault Api
  | [] => .ok api
  | (k, v) :: rest => do
    let key ← readKey [] k
    if isResourceKey key then
      let r ← readResource [key] key v
      readTop (api.addResourceAt key r) rest
    else readTop api rest

/-- The field at the top with this name, if there is one. -/
def readField (field : String) (entries : List (Value × Value)) : Except Fault (Option String) :=
  match Value.lookup field entries with
  | none => .ok none
  | some v => (readScalar [] field v).map some

/-- The API that a value describes. -/
def readApi : Value → Except Fault Api
  | .mapping entries => do
    match ← readField "title" entries with
    | none => throw ⟨.titleMissing, []⟩
    | some title =>
      let version ← readField "version" entries
      let baseUri ← readField "baseUri" entries
      readTop { title, version, baseUri } entries
  | _ => .error ⟨.rootNotMapping, []⟩

/-! ## §3 Texts -/

/-- The API that a text describes. -/
def parse (text : String) : Except Error Api :=
  let chars := text.toList
  if !hasHeader chars then
    .error (.invalid .headerMissing (some ⟨0, Text.byteLength (firstLine chars)⟩))
  else
    match Value.ofText chars with
    | .error cause => .error (.unparsed cause)
    | .ok v =>
      match readApi v with
      | .error fault => .error (.invalid fault.problem (locate chars fault.path))
      | .ok api => .ok api

end RouteStubs.Raml
