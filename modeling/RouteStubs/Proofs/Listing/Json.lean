import RouteStubs.Cli.Run
import RouteStubs.Proofs.Json.Reader
import RouteStubs.Proofs.Text.Lines
/-!
The JSON listing of endpoints, read back.

A reader takes the listing for a JSON list of records and looks the fields of each record up by their names, so
that neither the layout of the text nor the order of fields counts. `json_readBack` says that it finds exactly the
endpoints that were listed.
-/

namespace RouteStubs

/-! ## §1 Fields -/

namespace Json.Value

/-- The text that a value is. -/
def text? : Value → Option String
  | .text s => some s
  | _ => none

/-- The truth value that a value is. -/
def bool? : Value → Option Bool
  | .bool b => some b
  | _ => none

/-- The items of a list. -/
def items? : Value → Option (List Value)
  | .list items => some items
  | _ => none

/-- The value in the field of a record with this name. -/
def field? (name : String) : Value → Option Value
  | .record fields => fields.lookup name
  | _ => none

end Json.Value

/-- The parameter that a record describes. A pattern that is not named is none. -/
def Parameter.ofJson? (v : Json.Value) : Option Parameter := do
  let pattern ← match v.field? "pattern" with
    | some pattern => pattern.text?.map some
    | none => some none
  return {
    key := ← (← v.field? "key").text?
    type := ← (← v.field? "type").text?
    pattern
    required := ← (← v.field? "required").bool? }

/-- The endpoint that a record describes. -/
def Endpoint.ofJson? (v : Json.Value) : Option Endpoint := do
  return {
    verb := ← Verb.ofName? (← (← v.field? "verb").text?)
    handler := ← (← v.field? "handler").text?
    path := ← (← v.field? "path").text?
    description := ← (← v.field? "description").text?
    uriParameters := ← (← (← v.field? "uriParameters").items?).mapM Parameter.ofJson?
    queryParameters := ← (← (← v.field? "queryParameters").items?).mapM Parameter.ofJson? }

/-- The endpoints that a text lists in JSON. -/
def Listing.ofJson? (text : String) : Option (List Endpoint) := do
  (← (← Json.read? text.toList).items?).mapM Endpoint.ofJson?

/-! ## §2 Reading back -/

theorem Verb.ofName?_name (verb : Verb) : Verb.ofName? verb.name = some verb := by
  cases verb <;> decide

theorem mapM_map_eq_self {α β : Type} {write : α → β} {read : β → Option α} (h : ∀ a, read (write a) = some a)
    (as : List α) : (as.map write).mapM read = some as := by
  rw [Text.mapM_map_of_forall fun a _ => h a, List.map_id']

/-- A parameter is read back, with or without a pattern. -/
theorem Parameter.ofJson?_toJson (p : Parameter) : Parameter.ofJson? p.toJson = some p := by
  obtain ⟨key, type, pattern, required⟩ := p
  cases pattern <;> rfl

/-- An endpoint is read back, field by field. -/
theorem Endpoint.ofJson?_toJson (e : Endpoint) : Endpoint.ofJson? e.toJson = some e := by
  have hverb : e.toJson.field? "verb" = some (.text e.verb.name) := rfl
  have hhandler : e.toJson.field? "handler" = some (.text e.handler) := rfl
  have hpath : e.toJson.field? "path" = some (.text e.path) := rfl
  have hdescription : e.toJson.field? "description" = some (.text e.description) := rfl
  have huri : e.toJson.field? "uriParameters" = some (.list (e.uriParameters.map Parameter.toJson)) := rfl
  have hquery : e.toJson.field? "queryParameters" = some (.list (e.queryParameters.map Parameter.toJson)) := rfl
  simp only [ofJson?, hverb, hhandler, hpath, hdescription, huri, hquery, Json.Value.text?, Json.Value.items?,
    Verb.ofName?_name, mapM_map_eq_self Parameter.ofJson?_toJson, Option.bind_eq_bind, Option.bind_some]
  rfl

/-- **The JSON listing loses nothing**: the endpoints are read back from what a run prints when it is asked for
JSON, whatever their texts are. -/
theorem Listing.json_readBack (a : Cli.Arguments) (es : List Endpoint) :
    Listing.ofJson? (Cli.Plan.listing { a with json := true } es).out = some es := by
  have htext : ((Cli.Plan.listing { a with json := true } es).out).toList =
      (Json.Value.list (es.map Endpoint.toJson)).pretty ++ ['\n'] := String.toList_ofList
  have hblank : ∀ c ∈ ['\n'], Json.isBlank c = true := by simp [Json.isBlank]
  rw [ofJson?, htext, Json.read?_pretty _ hblank]
  exact mapM_map_eq_self Endpoint.ofJson?_toJson es

end RouteStubs
