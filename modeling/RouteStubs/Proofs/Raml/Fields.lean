import Mathlib.Data.List.Forall2
import RouteStubs.Proofs.Raml.Members
/-!
What the body of a method and the declaration of a parameter spell.

`SpellsMethod`, `SpellsParameters` and `SpellsParameter` relate a value to what it spells, field by field and without
regard to how it is read: a field comes from the entry of its name, and one that no entry gives has its default. Under
the name of a method's field and of a parameter it is the last entry that counts (`lastUnder`); for a field of a
parameter there is one entry only, under its name or its number (`fieldValue?`).

* `SpellsMethod.unique`, `SpellsParameters.unique` — a value spells one method, and one list of parameters.
* `SpellsParameters.nodup` — in that list no name stands twice.
-/

namespace RouteStubs.Raml

open Yaml (Value)

/-! ## §1 Values under keys -/

/-- The text that a value is, where a tag makes it another kind of value. -/
def bareText? : Value → Option String
  | .text s => some s
  | _ => none

/-- The boolean that a value is, where a tag makes it another kind of value. -/
def bareBool? : Value → Option Bool
  | .bool b => some b
  | _ => none

/-- The value of the last entry whose key is this text. -/
def lastUnder (key : String) (entries : List (Value × Value)) : Option Value :=
  (entries.reverse.find? fun e => e.1.text? == some key).map (·.2)

/-- The texts of the keys, each once and in the order of their first use. -/
def keyTexts (entries : List (Value × Value)) : List String := (entries.filterMap fun e => e.1.text?).eraseDups

/-- The entries of a body, behind any tags: those of a mapping, and none where there is nothing. -/
def bodyEntries? (v : Value) : Option (List (Value × Value)) :=
  match v.untagged with
  | .null => some []
  | .mapping entries => some entries
  | _ => none

theorem lastUnder_nil (key : String) : lastUnder key [] = none := rfl

/-- A further entry gives the value under its own key, and no other. -/
theorem lastUnder_append_singleton (key : String) (entries : List (Value × Value)) (e : Value × Value) :
    lastUnder key (entries ++ [e]) = if e.1.text? = some key then some e.2 else lastUnder key entries := by
  rw [lastUnder, lastUnder, List.reverse_append, List.reverse_singleton, List.singleton_append,
    List.find?_cons]
  by_cases h : e.1.text? = some key
  · simp [h]
  · rw [beq_false_of_ne h, if_neg h]

section
variable {entries : List (Value × Value)} {e : Value × Value} {key : String}

theorem lastUnder_append (h : e.1.text? = some key) (k : String) :
    lastUnder k (entries ++ [e]) = if k = key then some e.2 else lastUnder k entries := by
  rw [lastUnder_append_singleton, h]
  by_cases hk : k = key
  · simp [hk]
  · have hne : ¬ key = k := fun heq => hk heq.symm
    simp [hk, hne]

theorem lastUnder_append_of_ne (h : e.1.text? = some key) {k : String} (hk : k ≠ key) :
    lastUnder k (entries ++ [e]) = lastUnder k entries := by
  rw [lastUnder_append h, if_neg hk]

theorem nodup_keyTexts (entries : List (Value × Value)) : (keyTexts entries).Nodup := Entries.nodup_eraseDups _

/-- A further entry brings the text of its key, if no entry before it has that. -/
theorem keyTexts_append (h : e.1.text? = some key) :
    keyTexts (entries ++ [e]) = if key ∈ keyTexts entries then keyTexts entries else keyTexts entries ++ [key] := by
  have hsingle : [e].filterMap (fun e => e.1.text?) = [key] := by simp [h]
  unfold keyTexts
  rw [List.filterMap_append, hsingle, Entries.eraseDups_concat]
  simp only [List.mem_eraseDups]

end

/-! ## §2 Parameters -/

/-- The name of a field. -/
def ParameterField.name : ParameterField → String
  | .displayName => "displayName"
  | .description => "description"
  | .type => "type"
  | .pattern => "pattern"
  | .required => "required"

/-- The number of a field, in the order in which a list gives them. -/
def ParameterField.number : ParameterField → Int
  | .displayName => 0
  | .description => 1
  | .type => 2
  | .pattern => 3
  | .required => 4

/-- The key is one under which the field is given: its name or its number. -/
def ParameterField.hasKey (field : ParameterField) : Value → Bool
  | .text name => name == field.name
  | .number (.integer n) => n == field.number
  | _ => false

/-- The value that a mapping gives a field. -/
def fieldValue? (field : ParameterField) (entries : List (Value × Value)) : Option Value :=
  (entries.find? fun e => field.hasKey e.1).map (·.2)

/-- The declaration has what the mapping of a parameter gives: of each field the value of the only entry for it, and
the default where there is none or where it gives nothing. -/
structure SpellsFields (required : Bool) (entries : List (Value × Value)) (decl : ParameterDecl) : Prop where
  once : ∀ field : ParameterField, (entries.filter fun e => field.hasKey e.1).length ≤ 1
  displayName_eq : decl.displayName = (fieldValue? .displayName entries).bind bareText?
  description_eq : decl.description = (fieldValue? .description entries).bind bareText?
  type_eq : decl.type = ((fieldValue? .type entries).bind bareText?).getD "string"
  pattern_eq : decl.pattern = (fieldValue? .pattern entries).bind bareText?
  required_eq : decl.required = ((fieldValue? .required entries).bind bareBool?).getD required

/-- The value declares the parameter: by nothing, by the name of its type, by a mapping of its fields, or by the list
of the values of all fields. -/
inductive SpellsParameter (required : Bool) : Value → ParameterDecl → Prop
  | null : SpellsParameter required .null ⟨none, none, "string", none, required⟩
  | typeName (type : String) : SpellsParameter required (.text type) ⟨none, none, type, none, required⟩
  | mapping {entries : List (Value × Value)} {decl : ParameterDecl} (fields : SpellsFields required entries decl) :
    SpellsParameter required (.mapping entries) decl
  | list {displayName description type pattern required' : Value} {decl : ParameterDecl}
    (fields : SpellsFields required [(.text "displayName", displayName), (.text "description", description),
      (.text "type", type), (.text "pattern", pattern), (.text "required", required')] decl) :
    SpellsParameter required (.sequence [displayName, description, type, pattern, required']) decl

/-- The value, if there is one, declares the parameters: one for each name, in the order in which the names are first
used, as the last entry of that name declares it. -/
inductive SpellsParameters (required : Bool) : Option Value → ParameterDecls → Prop
  | absent : SpellsParameters required none []
  | present {v : Value} {entries : List (Value × Value)} {decls : ParameterDecls}
    (body : bodyEntries? v = some entries)
    (each : List.Forall₂ (fun name d => d.1 = name ∧
      ∃ w, lastUnder name entries = some w ∧ SpellsParameter required w d.2) (keyTexts entries) decls) :
    SpellsParameters required (some v) decls

section
variable {required : Bool}

theorem SpellsFields.unique {entries : List (Value × Value)} {decl decl' : ParameterDecl}
    (h : SpellsFields required entries decl) (h' : SpellsFields required entries decl') : decl = decl' := by
  obtain ⟨_, _, _, _, _⟩ := decl
  obtain ⟨_, _, _, _, _⟩ := decl'
  rw [ParameterDecl.mk.injEq]
  exact ⟨h.displayName_eq.trans h'.displayName_eq.symm, h.description_eq.trans h'.description_eq.symm,
    h.type_eq.trans h'.type_eq.symm, h.pattern_eq.trans h'.pattern_eq.symm, h.required_eq.trans h'.required_eq.symm⟩

/-- A value declares one parameter. -/
theorem SpellsParameter.unique {v : Value} {decl decl' : ParameterDecl} (h : SpellsParameter required v decl)
    (h' : SpellsParameter required v decl') : decl = decl' := by
  cases h with
  | null =>
    cases h'
    rfl
  | typeName type =>
    cases h'
    rfl
  | mapping fields =>
    obtain _ | _ | fields' := h'
    exact fields.unique fields'
  | list fields =>
    obtain _ | _ | _ | fields' := h'
    exact fields.unique fields'

/-- A value declares one list of parameters. -/
theorem SpellsParameters.unique {v : Option Value} {decls decls' : ParameterDecls}
    (h : SpellsParameters required v decls) (h' : SpellsParameters required v decls') : decls = decls' := by
  cases h with
  | absent =>
    cases h'
    rfl
  | present body each =>
    obtain _ | ⟨body', each'⟩ := h'
    obtain rfl := Option.some.inj (body.symm.trans body')
    refine List.right_unique_forall₂' (fun name d d' hd hd' => ?_) each each'
    obtain ⟨rfl, w, hw, hdecl⟩ := hd
    obtain ⟨hname, w', hw', hdecl'⟩ := hd'
    obtain rfl := Option.some.inj (hw.symm.trans hw')
    exact Prod.ext hname.symm (hdecl.unique hdecl')

/-- No name stands twice among the parameters that a value declares. -/
theorem SpellsParameters.nodup {v : Option Value} {decls : ParameterDecls} (h : SpellsParameters required v decls) :
    (decls.map Prod.fst).Nodup := by
  cases h with
  | absent => exact List.nodup_nil
  | @present v entries decls body each =>
    have hnames : decls.map Prod.fst = keyTexts entries := by
      rw [← List.forall₂_eq_eq_eq, List.forall₂_map_left_iff]
      exact each.flip.imp fun d name h => h.1
    rw [hnames]
    exact nodup_keyTexts entries

end

/-! ## §3 Methods -/

/-- The value declares the method: its names are the texts of the entries of these names, empty where there is none or
where it gives nothing, and its query parameters are those that the entry of that name declares. -/
inductive SpellsMethod (verb : Verb) : Value → Method → Prop
  | body {v : Value} {entries : List (Value × Value)} {m : Method} (body : bodyEntries? v = some entries)
    (verb_eq : m.verb = verb)
    (displayName : m.displayName = ((lastUnder "displayName" entries).bind Value.text?).getD "")
    (description : m.description = ((lastUnder "description" entries).bind Value.text?).getD "")
    (queryParameters : SpellsParameters false (lastUnder "queryParameters" entries) m.queryParameters) :
    SpellsMethod verb v m

/-- A value declares one method. -/
theorem SpellsMethod.unique {verb : Verb} {v : Value} {m m' : Method} (h : SpellsMethod verb v m)
    (h' : SpellsMethod verb v m') : m = m' := by
  obtain ⟨body, verb_eq, displayName, description, queryParameters⟩ := h
  obtain ⟨body', verb_eq', displayName', description', queryParameters'⟩ := h'
  obtain rfl := Option.some.inj (body.symm.trans body')
  obtain ⟨_, _, _, _⟩ := m
  obtain ⟨_, _, _, _⟩ := m'
  rw [Method.mk.injEq]
  exact ⟨verb_eq.trans verb_eq'.symm, displayName.trans displayName'.symm, description.trans description'.symm,
    queryParameters.unique queryParameters'⟩

theorem SpellsMethod.declaresOnce {verb : Verb} {v : Value} {m : Method} (h : SpellsMethod verb v m) :
    m.DeclaresOnce := by
  obtain ⟨-, -, -, -, queryParameters⟩ := h
  exact queryParameters.nodup

end RouteStubs.Raml
