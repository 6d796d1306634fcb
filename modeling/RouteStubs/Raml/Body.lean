import RouteStubs.Api
import RouteStubs.Yaml.Value
/-!
The bodies of methods and the declarations of parameters, read from values.

Fields that are not known are passed over. A parameter is declared by nothing, by the name of its type,
by a mapping of its fields, or by the list of all five fields in order; in a mapping a field may also be
given by its number.
-/

namespace RouteStubs.Raml

open Yaml (Value)

/-! ## §1 Errors -/

/-- What was expected in place of a value. -/
inductive Wanted where
  | method
  | text
  | map
  | fieldName
  deriving DecidableEq, Repr

/-- The words for what was expected. -/
def Wanted.message : Wanted → String
  | .method => "struct RawMethod"
  | .text => "a string"
  | .map => "a map"
  | .fieldName => "field identifier"

/-- Why a body cannot be read. -/
inductive BodyError where
  | wrongType (found : Value) (wanted : Wanted)
  | duplicateField (name : String)
  | tagInParameter
  | noSuchDeclaration

/-- The words for an error. -/
def BodyError.message : BodyError → String
  | .wrongType found wanted =>
    "invalid type: " ++ String.ofList found.describe ++ ", expected " ++ wanted.message
  | .duplicateField name => "duplicate field \x60" ++ name ++ "\x60"
  | .tagInParameter => "untagged and internally tagged enums do not support enum input"
  | .noSuchDeclaration => "data did not match any variant of untagged enum RawParameterValue"

/-! ## §2 Texts -/

/-- The text that a value is, behind any tags. -/
def readText (wanted : Wanted) (v : Value) : Except BodyError String :=
  match v.untagged with
  | .text s => .ok s
  | other => .error (.wrongType other wanted)

/-- The text that a value is, or nothing. -/
def readOptionalText : Value → Except BodyError (Option String)
  | .null => .ok none
  | v => (readText .text v).map some

/-! ## §3 Parameters -/

mutual

/-- There is a tag on the value or within it. -/
def hasTag : Value → Bool
  | .tagged .. => true
  | .sequence items => anyTag items
  | .mapping entries => anyTagIn entries
  | _ => false
termination_by structural v => v

/-- There is a tag on or within one of the values. -/
def anyTag : List Value → Bool
  | [] => false
  | v :: rest => hasTag v || anyTag rest
termination_by structural vs => vs

/-- There is a tag on or within one of the keys or values. -/
def anyTagIn : List (Value × Value) → Bool
  | [] => false
  | (k, v) :: rest => hasTag k || hasTag v || anyTagIn rest
termination_by structural es => es

end

/-- The fields of a parameter. -/
inductive ParameterField where
  | displayName
  | description
  | type
  | pattern
  | required
  deriving DecidableEq, Repr

/-- The fields in order. -/
def ParameterField.all : List ParameterField :=
  [.displayName, .description, .type, .pattern, .required]

/-- The field with this name. -/
def ParameterField.ofName? (name : String) : Option ParameterField :=
  if name = "displayName" then some .displayName
  else if name = "description" then some .description
  else if name = "type" then some .type
  else if name = "pattern" then some .pattern
  else if name = "required" then some .required
  else none

/-- A key of a parameter's mapping: a known field, an unknown one (`some none`), or no key of a field. -/
def fieldOfKey : Value → Option (Option ParameterField)
  | .text name => some (ParameterField.ofName? name)
  | .number (.integer n) => if 0 ≤ n then some ParameterField.all[n.toNat]? else none
  | _ => none

/-- The fields of a parameter that have been given, `none` where one was given as nothing. -/
structure ParameterFields where
  displayName : Option (Option String) := none
  description : Option (Option String) := none
  type : Option (Option String) := none
  pattern : Option (Option String) := none
  required : Option (Option Bool) := none

/-- A text without a tag, or nothing. -/
def plainText? : Value → Option (Option String)
  | .null => some none
  | .text s => some (some s)
  | _ => none

/-- A boolean without a tag, or nothing. -/
def plainBool? : Value → Option (Option Bool)
  | .null => some none
  | .bool b => some (some b)
  | _ => none

/-- Gives a field a value, unless it has been given one or the value is of the wrong kind. -/
def ParameterFields.set? (fields : ParameterFields) (v : Value) :
    ParameterField → Option ParameterFields
  | .displayName =>
    if fields.displayName.isSome then none
    else (plainText? v).map fun s => { fields with displayName := some s }
  | .description =>
    if fields.description.isSome then none
    else (plainText? v).map fun s => { fields with description := some s }
  | .type =>
    if fields.type.isSome then none
    else (plainText? v).map fun s => { fields with type := some s }
  | .pattern =>
    if fields.pattern.isSome then none
    else (plainText? v).map fun s => { fields with pattern := some s }
  | .required =>
    if fields.required.isSome then none
    else (plainBool? v).map fun b => { fields with required := some b }

/-- Reads the fields of a mapping. -/
def fieldsOfEntries? (fields : ParameterFields) : List (Value × Value) → Option ParameterFields
  | [] => some fields
  | (k, v) :: rest =>
    match fieldOfKey k with
    | none => none
    | some none => fieldsOfEntries? fields rest
    | some (some field) => (fields.set? v field).bind fun fields => fieldsOfEntries? fields rest

/-- Reads the fields of a list, which are all five. -/
def fieldsOfItems? (fields : ParameterFields) :
    List ParameterField → List Value → Option ParameterFields
  | [], [] => some fields
  | field :: rest, v :: vs => (fields.set? v field).bind fun fields => fieldsOfItems? fields rest vs
  | _, _ => none

/-- The declaration that fields make; `required` is the default for that field. -/
def ParameterFields.toDecl (fields : ParameterFields) (required : Bool) : ParameterDecl where
  displayName := fields.displayName.join
  description := fields.description.join
  type := fields.type.join.getD "string"
  pattern := fields.pattern.join
  required := fields.required.join.getD required

/-- The declaration of a parameter that a value makes. -/
def readParameter (required : Bool) : Value → Except BodyError ParameterDecl
  | .null => .ok (ParameterFields.toDecl {} required)
  | v =>
    if hasTag v then .error .tagInParameter
    else
      let fields : Option ParameterFields := match v with
        | .text s => some { type := some (some s) }
        | .mapping entries => fieldsOfEntries? {} entries
        | .sequence items => fieldsOfItems? {} ParameterField.all items
        | _ => none
      match fields with
      | some fields => .ok (fields.toDecl required)
      | none => .error .noSuchDeclaration

/-- Reads the entries of a mapping of parameters, after those read already. -/
def readParameterEntries (required : Bool) (decls : ParameterDecls) :
    List (Value × Value) → Except BodyError ParameterDecls
  | [] => .ok decls
  | (k, v) :: rest => do
    let name ← readText .text k
    let decl ← readParameter required v
    readParameterEntries required (Entries.put name decl decls) rest

/-- The parameters that a value declares; nothing declares none. -/
def readParameters (required : Bool) (v : Value) : Except BodyError ParameterDecls :=
  match v.untagged with
  | .null => .ok []
  | .mapping entries => readParameterEntries required [] entries
  | other => .error (.wrongType other .map)

/-! ## §4 Methods -/

/-- The fields of a method that have been given. -/
structure MethodFields where
  displayName : Option (Option String) := none
  description : Option (Option String) := none
  queryParameters : Option ParameterDecls := none

/-- Reads the fields of a method. -/
def readMethodEntries (fields : MethodFields) :
    List (Value × Value) → Except BodyError MethodFields
  | [] => .ok fields
  | (k, v) :: rest => do
    let name ← readText .fieldName k
    if name = "displayName" then
      if fields.displayName.isSome then throw (.duplicateField name)
      let s ← readOptionalText v
      readMethodEntries { fields with displayName := some s } rest
    else if name = "description" then
      if fields.description.isSome then throw (.duplicateField name)
      let s ← readOptionalText v
      readMethodEntries { fields with description := some s } rest
    else if name = "queryParameters" then
      if fields.queryParameters.isSome then throw (.duplicateField name)
      let decls ← readParameters false v
      readMethodEntries { fields with queryParameters := some decls } rest
    else readMethodEntries fields rest

/-- The method that a value declares for a verb; nothing declares one without names. -/
def readMethod (verb : Verb) (v : Value) : Except BodyError Method :=
  let make (fields : MethodFields) : Method :=
    ⟨verb, fields.displayName.join.getD "", fields.description.join.getD "",
      fields.queryParameters.getD []⟩
  match v.untagged with
  | .null => .ok (make {})
  | .mapping entries => (readMethodEntries {} entries).map make
  | other => .error (.wrongType other .method)

end RouteStubs.Raml
