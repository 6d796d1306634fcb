import RouteStubs.Proofs.Raml.Fields
import RouteStubs.Proofs.Raml.Runs
/-!
Methods and parameters, one entry at a time.

Like resources, the mappings of methods and of parameters are read by a run over their entries
(`readMethodEntries_eq`, `readParameterEntries_eq`, `fieldsOfEntries?_eq`). The steps of these runs are
`readMethodEntry`, `readParameterEntry` and `readParameterField?`.

An entry of a method or of a parameter gives one field, which is read without regard to the others
(`MethodEntry`, `ParameterEntry`); a field that has been given is not given again. What the declarations of
several parameters come to is in `declarations_of_readParameterEntries`: each name once, in the order of first use,
with the declaration that the last entry of that name makes.
-/

namespace RouteStubs

open Yaml (Value)

namespace Raml

/-! ## §1 Entries of methods -/

theorem readText_eq_ok {wanted : Wanted} {v : Value} {s : String} :
    readText wanted v = .ok s ↔ v.text? = some s := by
  rw [readText, Value.text?]
  cases v.untagged <;> simp

/-- Reads one entry of a method, into the fields that have been given. -/
def readMethodEntry (fields : MethodFields) (e : Value × Value) : Except BodyError MethodFields := do
  let name ← readText .fieldName e.1
  if name = "displayName" then
    if fields.displayName.isSome then throw (.duplicateField name)
    let s ← readOptionalText e.2
    return { fields with displayName := some s }
  else if name = "description" then
    if fields.description.isSome then throw (.duplicateField name)
    let s ← readOptionalText e.2
    return { fields with description := some s }
  else if name = "queryParameters" then
    if fields.queryParameters.isSome then throw (.duplicateField name)
    let decls ← readParameters false e.2
    return { fields with queryParameters := some decls }
  else return fields

/-- **A method is read one entry after the other.** -/
theorem readMethodEntries_eq (fields : MethodFields) (entries : List (Value × Value)) :
    readMethodEntries fields entries = entries.foldlM readMethodEntry fields := by
  induction entries generalizing fields with
  | nil => rfl
  | cons e rest ih =>
    obtain ⟨k, v⟩ := e
    rw [List.foldlM_cons, readMethodEntries, readMethodEntry]
    cases readText .fieldName k with
    | error cause => rfl
    | ok name =>
      simp only [bind, Except.bind, pure, Except.pure, throw, throwThe, MonadExceptOf.throw]
      split_ifs
      · rfl
      · cases readOptionalText v with
        | error cause => rfl
        | ok s => exact ih _
      · rfl
      · cases readOptionalText v with
        | error cause => rfl
        | ok s => exact ih _
      · rfl
      · cases readParameters false v with
        | error cause => rfl
        | ok decls => exact ih _
      · exact ih _

/-- What one entry of a method gives. -/
inductive MethodEntry where
  | displayName (s : Option String)
  | description (s : Option String)
  | queryParameters (decls : ParameterDecls)
  | unknown

/-- What an entry gives, if its key is a text and its value is what that demands. -/
def MethodEntry.read? (e : Value × Value) : Option MethodEntry :=
  e.1.text?.bind fun name =>
    if name = "displayName" then (readOptionalText e.2).toOption.map .displayName
    else if name = "description" then (readOptionalText e.2).toOption.map .description
    else if name = "queryParameters" then (readParameters false e.2).toOption.map .queryParameters
    else some .unknown

/-- Gives a field, unless it has been given. -/
def MethodFields.give? (fields : MethodFields) : MethodEntry → Option MethodFields
  | .displayName s => if fields.displayName.isSome then none else some { fields with displayName := some s }
  | .description s => if fields.description.isSome then none else some { fields with description := some s }
  | .queryParameters decls =>
    if fields.queryParameters.isSome then none else some { fields with queryParameters := some decls }
  | .unknown => some fields

/-- **One entry of a method gives what it says**, unless that has been given. -/
theorem readMethodEntry_toOption (fields : MethodFields) (e : Value × Value) :
    (readMethodEntry fields e).toOption = (MethodEntry.read? e).bind fields.give? := by
  rw [readMethodEntry, MethodEntry.read?, readText, Value.text?]
  cases e.1.untagged with
  | text name =>
    simp only [bind, Except.bind, pure, Except.pure, throw, throwThe, MonadExceptOf.throw, Option.bind_some]
    split_ifs with hname hgiven hdescription hgiven hparameters hgiven
    · cases readOptionalText e.2 <;> simp [MethodFields.give?, hgiven, Except.toOption]
    · cases readOptionalText e.2 <;> simp [MethodFields.give?, hgiven, Except.toOption]
    · cases readOptionalText e.2 <;> simp [MethodFields.give?, hgiven, Except.toOption]
    · cases readOptionalText e.2 <;> simp [MethodFields.give?, hgiven, Except.toOption]
    · cases readParameters false e.2 <;> simp [MethodFields.give?, hgiven, Except.toOption]
    · cases readParameters false e.2 <;> simp [MethodFields.give?, hgiven, Except.toOption]
    · rfl
  | _ => rfl

theorem readMethodEntry_eq_ok {fields fields' : MethodFields} {e : Value × Value} :
    readMethodEntry fields e = .ok fields' ↔
      ∃ given, MethodEntry.read? e = some given ∧ fields.give? given = some fields' := by
  rw [← toOption_eq_some, readMethodEntry_toOption, Option.bind_eq_some_iff]

/-- What is given under a key with a text is read from the value there. -/
theorem MethodEntry.read?_of_text {e : Value × Value} {name : String} (h : e.1.text? = some name) :
    read? e =
      if name = "displayName" then (readOptionalText e.2).toOption.map .displayName
      else if name = "description" then (readOptionalText e.2).toOption.map .description
      else if name = "queryParameters" then (readParameters false e.2).toOption.map .queryParameters
      else some .unknown := by
  rw [read?, h, Option.bind_some]

/-- The method that fields make. -/
def MethodFields.toMethod (fields : MethodFields) (verb : Verb) : Method :=
  ⟨verb, fields.displayName.join.getD "", fields.description.join.getD "", fields.queryParameters.getD []⟩

theorem readMethod_mapping (verb : Verb) (entries : List (Value × Value)) :
    readMethod verb (.mapping entries) =
      (entries.foldlM readMethodEntry {}).map fun fields => fields.toMethod verb := by
  rw [← readMethodEntries_eq]
  rfl

theorem readMethod_mapping_eq_ok {verb : Verb} {entries : List (Value × Value)} {m : Method} :
    readMethod verb (.mapping entries) = .ok m ↔
      ∃ fields, entries.foldlM readMethodEntry {} = .ok fields ∧ fields.toMethod verb = m := by
  rw [readMethod_mapping]
  cases entries.foldlM readMethodEntry {} <;> simp [Except.map]

/-! ## §2 Entries of parameters -/

/-- Reads one entry of a mapping of parameters, into what has been declared. -/
def readParameterEntry (required : Bool) (decls : ParameterDecls) (e : Value × Value) :
    Except BodyError ParameterDecls := do
  let name ← readText .text e.1
  let decl ← readParameter required e.2
  return Entries.put name decl decls

/-- **Parameters are read one entry after the other.** -/
theorem readParameterEntries_eq (required : Bool) (decls : ParameterDecls)
    (entries : List (Value × Value)) :
    readParameterEntries required decls entries = entries.foldlM (readParameterEntry required) decls := by
  induction entries generalizing decls with
  | nil => rfl
  | cons e rest ih =>
    obtain ⟨k, v⟩ := e
    rw [List.foldlM_cons, readParameterEntries, readParameterEntry]
    cases readText .text k with
    | error cause => rfl
    | ok name => cases hdecl : readParameter required v with
      | error cause => simp [bind, Except.bind]
      | ok decl => simp [bind, Except.bind, pure, Except.pure, ih]

theorem readParameterEntry_eq_ok {required : Bool} {decls decls' : ParameterDecls} {e : Value × Value} :
    readParameterEntry required decls e = .ok decls' ↔ ∃ name decl, e.1.text? = some name ∧
      readParameter required e.2 = .ok decl ∧ decls' = Entries.put name decl decls := by
  constructor
  · intro h
    obtain ⟨name, hname, h⟩ := bind_eq_ok.mp h
    obtain ⟨decl, hdecl, h⟩ := bind_eq_ok.mp h
    exact ⟨name, decl, readText_eq_ok.mp hname, hdecl, (Except.ok.inj h).symm⟩
  · rintro ⟨name, decl, hname, hdecl, rfl⟩
    exact bind_eq_ok.mpr ⟨name, readText_eq_ok.mpr hname, bind_eq_ok.mpr ⟨decl, hdecl, rfl⟩⟩

/-- Parameters can be read exactly if every key is a text and every value declares a parameter. -/
theorem readParameterEntries_isOk_iff {required : Bool} {entries : List (Value × Value)} :
    (∃ decls, readParameterEntries required [] entries = .ok decls) ↔
      ∀ e ∈ entries, ∃ name decl, e.1.text? = some name ∧ readParameter required e.2 = .ok decl := by
  rw [readParameterEntries_eq]
  refine foldlM_isOk_iff (fun decls e => ?_) [] entries
  constructor
  · rintro ⟨decls', h⟩
    obtain ⟨name, decl, hname, hdecl, -⟩ := readParameterEntry_eq_ok.mp h
    exact ⟨name, decl, hname, hdecl⟩
  · rintro ⟨name, decl, hname, hdecl⟩
    exact ⟨_, readParameterEntry_eq_ok.mpr ⟨name, decl, hname, hdecl, rfl⟩⟩

/-- **What parameters that have been read are**: each name once, in the order of first use, with the declaration that
the last entry of that name makes. -/
theorem declarations_of_readParameterEntries {required : Bool} {entries : List (Value × Value)}
    {decls : ParameterDecls} (h : readParameterEntries required [] entries = .ok decls) :
    decls.map Prod.fst = keyTexts entries ∧ ∀ name decl, (name, decl) ∈ decls ↔
      ∃ v, lastUnder name entries = some v ∧ readParameter required v = .ok decl := by
  rw [readParameterEntries_eq] at h
  refine foldlM_invariant (motive := fun read decls => decls.map Prod.fst = keyTexts read ∧
    ∀ name decl, (name, decl) ∈ decls ↔
      ∃ v, lastUnder name read = some v ∧ readParameter required v = .ok decl) ?_ ?_ h
  · intro before e decls decls' _ hbefore hstep
    obtain ⟨key, decl, hkey, hdecl, rfl⟩ := readParameterEntry_eq_ok.mp hstep
    obtain ⟨hnames, hmem⟩ := hbefore
    have hnodup : (decls.map Prod.fst).Nodup := by
      rw [hnames]
      exact nodup_keyTexts before
    refine ⟨?names, fun name decl' => ?each⟩
    case names => rw [Entries.map_fst_put, hnames, keyTexts_append hkey]
    case each =>
      rw [Entries.mem_put hnodup, lastUnder_append hkey, hmem]
      by_cases hname : name = key
      · simp [hname, hdecl, eq_comm]
      · simp [hname]
  · exact ⟨rfl, fun name decl => by simp [lastUnder_nil]⟩

/-! ## §3 Fields of a parameter -/

/-- What one entry of a parameter gives. -/
inductive ParameterEntry where
  | displayName (s : Option String)
  | description (s : Option String)
  | type (s : Option String)
  | pattern (s : Option String)
  | required (b : Option Bool)
  | unknown

/-- What a value gives a field, if it is of the right kind. -/
def ParameterEntry.ofField? (v : Value) : ParameterField → Option ParameterEntry
  | .displayName => (plainText? v).map .displayName
  | .description => (plainText? v).map .description
  | .type => (plainText? v).map .type
  | .pattern => (plainText? v).map .pattern
  | .required => (plainBool? v).map .required

/-- What an entry gives, if its key may stand in a parameter and its value is what that demands. -/
def ParameterEntry.read? (e : Value × Value) : Option ParameterEntry :=
  (fieldOfKey e.1).bind fun field? => field?.elim (some .unknown) (ofField? e.2)

/-- Gives a field, unless it has been given. -/
def ParameterFields.give? (fields : ParameterFields) : ParameterEntry → Option ParameterFields
  | .displayName s => if fields.displayName.isSome then none else some { fields with displayName := some s }
  | .description s => if fields.description.isSome then none else some { fields with description := some s }
  | .type s => if fields.type.isSome then none else some { fields with type := some s }
  | .pattern s => if fields.pattern.isSome then none else some { fields with pattern := some s }
  | .required b => if fields.required.isSome then none else some { fields with required := some b }
  | .unknown => some fields

theorem ParameterFields.set?_eq (fields : ParameterFields) (v : Value) (field : ParameterField) :
    fields.set? v field = (ParameterEntry.ofField? v field).bind fields.give? := by
  cases field with
  | required => cases h : plainBool? v <;> simp [set?, ParameterEntry.ofField?, give?, h]
  | _ => cases h : plainText? v <;> simp [set?, ParameterEntry.ofField?, give?, h]

/-- Reads one entry of the mapping of a parameter, into the fields that have been given. -/
def readParameterField? (fields : ParameterFields) (e : Value × Value) : Option ParameterFields :=
  (ParameterEntry.read? e).bind fields.give?

/-- **The fields of a parameter are read one entry after the other.** -/
theorem fieldsOfEntries?_eq (fields : ParameterFields) (entries : List (Value × Value)) :
    fieldsOfEntries? fields entries = entries.foldlM readParameterField? fields := by
  induction entries generalizing fields with
  | nil => rfl
  | cons e rest ih =>
    obtain ⟨k, v⟩ := e
    rw [List.foldlM_cons, fieldsOfEntries?, readParameterField?, ParameterEntry.read?]
    cases fieldOfKey k with
    | none => rfl
    | some field? =>
      cases field? with
      | none => exact ih fields
      | some field =>
        show (fields.set? v field).bind _ = ((ParameterEntry.ofField? v field).bind fields.give?).bind _
        rw [ParameterFields.set?_eq]
        exact congrArg _ (funext ih)

theorem anyTagIn_eq_any (entries : List (Value × Value)) :
    anyTagIn entries = entries.any fun e => hasTag e.1 || hasTag e.2 := by
  induction entries with
  | nil => rfl
  | cons e rest ih =>
    obtain ⟨k, v⟩ := e
    rw [anyTagIn, ih, List.any_cons]

/-- The mapping of a parameter is read, field by field, if there is no tag in it. -/
theorem readParameter_mapping (required : Bool) (entries : List (Value × Value)) :
    readParameter required (.mapping entries) =
      if anyTagIn entries then .error .tagInParameter
      else
        match fieldsOfEntries? {} entries with
        | some fields => .ok (fields.toDecl required)
        | none => .error .noSuchDeclaration := rfl

end Raml

end RouteStubs
