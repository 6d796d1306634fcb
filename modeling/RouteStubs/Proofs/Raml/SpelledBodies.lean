import RouteStubs.Proofs.Raml.Bodies
/-!
The methods and parameters that are read are those that their values spell.

Both are runs over entries, and what has been given so far is what the entries read so far say: for a parameter each
field has the value of the only entry for it (`value?_of_fieldsOfEntries?`), and for a method that of the last entry
of its name (`MethodFields.Say`). One more entry keeps it so.

* `spellsParameters_of_readParameters`, `spellsMethod_of_readMethod` — what is read is what is spelled.
-/

namespace RouteStubs

open Yaml (Value)

namespace Raml

/-! ## §1 Parameters -/

section
variable {fields fields' : ParameterFields}

/-- The value that a field has been given. -/
def ParameterFields.value? (fields : ParameterFields) : ParameterField → Option Value
  | .displayName => fields.displayName.map fun s => s.elim .null .text
  | .description => fields.description.map fun s => s.elim .null .text
  | .type => fields.type.map fun s => s.elim .null .text
  | .pattern => fields.pattern.map fun s => s.elim .null .text
  | .required => fields.required.map fun b => b.elim .null .bool

theorem eq_of_plainText? {v : Value} {s : Option String} (h : plainText? v = some s) : s.elim .null .text = v := by
  cases v <;> simp_all [plainText?] <;> subst h <;> rfl

theorem eq_of_plainBool? {v : Value} {b : Option Bool} (h : plainBool? v = some b) : b.elim .null .bool = v := by
  cases v <;> simp_all [plainBool?] <;> subst h <;> rfl

/-- A field that is given had not been given, and the others stay as they are. -/
theorem ParameterFields.value?_of_set? {v : Value} {field : ParameterField} (h : fields.set? v field = some fields') :
    fields.value? field = none ∧
      ∀ other, fields'.value? other = if other = field then some v else fields.value? other := by
  cases field <;>
    simp only [set?, Option.ite_none_left_eq_some, Option.map_eq_some_iff, Bool.not_eq_true,
      Option.isSome_eq_false_iff, Option.isNone_iff_eq_none] at h <;>
    obtain ⟨hnone, given, hgiven, rfl⟩ := h
  case required =>
    obtain rfl := eq_of_plainBool? hgiven
    exact ⟨by simp [value?, hnone], fun other => by cases other <;> simp [value?]⟩
  all_goals
    obtain rfl := eq_of_plainText? hgiven
    exact ⟨by simp [value?, hnone], fun other => by cases other <;> simp [value?]⟩

theorem ParameterField.hasKey_number_iff (field : ParameterField) (n : Int) :
    field.hasKey (.number (.integer n)) = true ↔ fieldOfKey (.number (.integer n)) = some (some field) := by
  match n with
  | .negSucc n =>
    have hnegative : ¬ 0 ≤ Int.negSucc n := by omega
    rw [fieldOfKey, if_neg hnegative]
    cases field <;> simp [hasKey, number]
  | 0 | 1 | 2 | 3 | 4 => cases field <;> decide
  | .ofNat (n + 5) =>
    have hnumber : field.number < 5 := by cases field <;> decide
    have hne : ¬ Int.ofNat (n + 5) = field.number := by
      rw [Int.ofNat_eq_natCast]
      omega
    have hunknown : fieldOfKey (.number (.integer (.ofNat (n + 5)))) = some none := rfl
    rw [hasKey, beq_iff_eq, hunknown]
    simpa using hne

theorem ParameterField.ofName?_eq_some {field : ParameterField} {name : String} :
    ofName? name = some field ↔ name = field.name := by
  constructor
  · intro h
    unfold ofName? at h
    split_ifs at h with h₁ h₂ h₃ h₄ h₅ <;> cases h <;> assumption
  · rintro rfl
    cases field <;> rfl

/-- The keys of a field are those that are read as the field. -/
theorem ParameterField.hasKey_iff {field : ParameterField} {k : Value} :
    field.hasKey k = true ↔ fieldOfKey k = some (some field) := by
  cases k with
  | text name => rw [hasKey, beq_iff_eq, fieldOfKey, Option.some_inj, ofName?_eq_some]
  | number n =>
    cases n with
    | integer n => exact hasKey_number_iff field n
    | real x => simp [hasKey, fieldOfKey]
  | _ => simp [hasKey, fieldOfKey]

/-- **The value that a mapping gives a field** is that of its only entry for it, unless the field was given before. -/
theorem value?_of_fieldsOfEntries? {entries : List (Value × Value)}
    (h : fieldsOfEntries? fields entries = some fields') (field : ParameterField) :
    (fields'.value? field).toList =
      (fields.value? field).toList ++ (entries.filter fun e => field.hasKey e.1).map Prod.snd := by
  induction entries generalizing fields with
  | nil =>
    obtain rfl := Option.some.inj h
    simp
  | cons e rest ih =>
    obtain ⟨k, v⟩ := e
    rw [fieldsOfEntries?] at h
    cases hk : fieldOfKey k with
    | none =>
      rw [hk] at h
      cases h
    | some found =>
      rw [hk] at h
      cases found with
      | none =>
        have hnot : ¬ field.hasKey k = true := by simp [ParameterField.hasKey_iff, hk]
        rw [List.filter_cons_of_neg (p := fun e : Value × Value => field.hasKey e.1) hnot]
        exact ih h
      | some given =>
        obtain ⟨next, hset, hrest⟩ := Option.bind_eq_some_iff.mp h
        obtain ⟨hnone, hvalue⟩ := ParameterFields.value?_of_set? hset
        rw [ih hrest, hvalue]
        by_cases hfield : field = given
        · subst hfield
          have hkey : field.hasKey k = true := ParameterField.hasKey_iff.mpr hk
          rw [List.filter_cons_of_pos (p := fun e : Value × Value => field.hasKey e.1) hkey, if_pos rfl, hnone]
          rfl
        · have hnot : ¬ field.hasKey k = true := by
            rw [ParameterField.hasKey_iff, hk, Option.some_inj, Option.some_inj]
            exact Ne.symm hfield
          rw [List.filter_cons_of_neg (p := fun e : Value × Value => field.hasKey e.1) hnot, if_neg hfield]

/-- What the mapping of a parameter declares is what its entries say. -/
theorem spellsFields_of_fieldsOfEntries? {entries : List (Value × Value)}
    (h : fieldsOfEntries? {} entries = some fields) (required : Bool) :
    SpellsFields required entries (fields.toDecl required) := by
  have hgiven : ∀ field : ParameterField,
      (fields.value? field).toList = (entries.filter fun e => field.hasKey e.1).map Prod.snd := fun field => by
    have hstart : ParameterFields.value? {} field = none := by cases field <;> rfl
    simpa [hstart] using value?_of_fieldsOfEntries? h field
  have hvalue : ∀ field, fieldValue? field entries = fields.value? field := fun field => by
    rw [fieldValue?, ← List.head?_filter, ← List.head?_map, ← hgiven, Option.head?_toList]
  obtain ⟨displayName, description, type, pattern, required'⟩ := fields
  constructor
  case once =>
    intro field
    rw [← List.length_map Prod.snd, ← hgiven]
    exact Option.length_toList_le
  case displayName_eq =>
    rw [hvalue]
    obtain _ | _ | s := displayName <;> rfl
  case description_eq =>
    rw [hvalue]
    obtain _ | _ | s := description <;> rfl
  case type_eq =>
    rw [hvalue]
    obtain _ | _ | s := type <;> rfl
  case pattern_eq =>
    rw [hvalue]
    obtain _ | _ | s := pattern <;> rfl
  case required_eq =>
    rw [hvalue]
    obtain _ | _ | b := required' <;> rfl

end

/-- A list of values is read as the mapping of the names of the fields to them. -/
theorem fieldsOfEntries?_of_fieldsOfItems? {fields fields' : ParameterFields} {names : List ParameterField}
    {items : List Value} (h : fieldsOfItems? fields names items = some fields') :
    items.length = names.length ∧
      fieldsOfEntries? fields ((names.map fun field => Value.text field.name).zip items) = some fields' := by
  induction names generalizing fields items with
  | nil =>
    cases items with
    | nil => exact ⟨rfl, h⟩
    | cons v rest => cases h
  | cons field names ih =>
    cases items with
    | nil => cases h
    | cons v rest =>
      obtain ⟨next, hset, hrest⟩ := Option.bind_eq_some_iff.mp h
      obtain ⟨hlength, hentries⟩ := ih hrest
      have hkey : fieldOfKey (.text field.name) = some (some field) := by cases field <;> rfl
      refine ⟨congrArg Nat.succ hlength, ?_⟩
      rw [List.map_cons, List.zip_cons_cons, fieldsOfEntries?, hkey]
      exact Option.bind_eq_some_iff.mpr ⟨next, hset, hentries⟩

/-- The list of a parameter is read, item by item, if there is no tag in it. -/
theorem readParameter_sequence (required : Bool) (items : List Value) :
    readParameter required (.sequence items) =
      if anyTag items then .error .tagInParameter
      else
        match fieldsOfItems? {} ParameterField.all items with
        | some fields => .ok (fields.toDecl required)
        | none => .error .noSuchDeclaration := rfl

theorem readParameter_sequence_eq_ok {required : Bool} {items : List Value} {decl : ParameterDecl}
    (h : readParameter required (.sequence items) = .ok decl) :
    ∃ fields, fieldsOfItems? {} ParameterField.all items = some fields ∧ fields.toDecl required = decl := by
  rw [readParameter_sequence] at h
  split_ifs at h
  split at h
  case h_1 fields hfields =>
    cases h
    exact ⟨fields, hfields, rfl⟩
  case h_2 => cases h

/-- **The declaration that is read is the one that the value spells.** -/
theorem spellsParameter_of_readParameter {required : Bool} {v : Value} {decl : ParameterDecl}
    (h : readParameter required v = .ok decl) : SpellsParameter required v decl := by
  cases v with
  | null =>
    cases h
    exact .null
  | text s =>
    cases h
    exact .typeName s
  | mapping entries =>
    rw [readParameter_mapping] at h
    split_ifs at h
    split at h
    case h_1 fields hfields =>
      cases h
      exact .mapping (spellsFields_of_fieldsOfEntries? hfields required)
    case h_2 => cases h
  | sequence items =>
    obtain ⟨fields, hfields, rfl⟩ := readParameter_sequence_eq_ok h
    obtain ⟨hlength, hentries⟩ := fieldsOfEntries?_of_fieldsOfItems? hfields
    match items, hlength with
    | [_, _, _, _, _], _ => exact .list (spellsFields_of_fieldsOfEntries? hentries required)
  | _ => cases h

/-- **The parameters that are read are those that the value spells.** -/
theorem spellsParameters_of_readParameters {required : Bool} {v : Value} {decls : ParameterDecls}
    (h : readParameters required v = .ok decls) : SpellsParameters required (some v) decls := by
  rw [readParameters] at h
  split at h
  case h_1 hnull =>
    cases h
    exact .present (by rw [bodyEntries?, hnull]) .nil
  case h_2 entries hmapping =>
    obtain ⟨hnames, hmem⟩ := declarations_of_readParameterEntries h
    refine .present (by rw [bodyEntries?, hmapping]) ?_
    rw [← hnames, List.forall₂_map_left_iff, List.forall₂_same]
    rintro ⟨name, decl⟩ hdecl
    obtain ⟨w, hw, hread⟩ := (hmem name decl).mp hdecl
    exact ⟨rfl, w, hw, spellsParameter_of_readParameter hread⟩
  case h_3 => cases h

/-! ## §2 Methods -/

/-- A text that may be absent is the text that the value is. -/
theorem eq_text?_of_readOptionalText {v : Value} {s : Option String} (h : readOptionalText v = .ok s) :
    s = v.text? := by
  rw [readOptionalText.eq_def] at h
  split at h
  case h_1 =>
    cases h
    rfl
  case h_2 =>
    cases ht : readText .text v with
    | error cause =>
      rw [ht] at h
      cases h
    | ok t =>
      rw [ht] at h
      cases h
      exact (readText_eq_ok.mp ht).symm

/-- The fields of a method that have been given are those that the entries say. -/
structure MethodFields.Say (fields : MethodFields) (entries : List (Value × Value)) : Prop where
  displayName : fields.displayName = (lastUnder "displayName" entries).map Value.text?
  description : fields.description = (lastUnder "description" entries).map Value.text?
  queryParameters : SpellsParameters false (lastUnder "queryParameters" entries) (fields.queryParameters.getD [])

/-- What one entry of a method with this name and value gives, if it can be read. -/
inductive GivesField (fields : MethodFields) (v : Value) : String → MethodFields → Prop
  | displayName {s : Option String} (hs : readOptionalText v = .ok s) :
    GivesField fields v "displayName" { fields with displayName := some s }
  | description {s : Option String} (hs : readOptionalText v = .ok s) :
    GivesField fields v "description" { fields with description := some s }
  | queryParameters {decls : ParameterDecls} (hdecls : readParameters false v = .ok decls) :
    GivesField fields v "queryParameters" { fields with queryParameters := some decls }
  | unknown {name : String} (displayName : name ≠ "displayName") (description : name ≠ "description")
    (queryParameters : name ≠ "queryParameters") : GivesField fields v name fields

theorem givesField_of_readMethodEntry {fields fields' : MethodFields} {e : Value × Value}
    (h : readMethodEntry fields e = .ok fields') :
    ∃ name, e.1.text? = some name ∧ GivesField fields e.2 name fields' := by
  obtain ⟨given, hgiven, hgive⟩ := readMethodEntry_eq_ok.mp h
  obtain ⟨name, hname, hgiven⟩ := Option.bind_eq_some_iff.mp hgiven
  refine ⟨name, hname, ?_⟩
  split_ifs at hgiven with hdisplayName hdescription hqueryParameters
  · obtain ⟨s, hs, rfl⟩ := Option.map_eq_some_iff.mp hgiven
    obtain ⟨-, hgive⟩ := Option.ite_none_left_eq_some.mp hgive
    cases hgive
    subst hdisplayName
    exact .displayName (toOption_eq_some.mp hs)
  · obtain ⟨s, hs, rfl⟩ := Option.map_eq_some_iff.mp hgiven
    obtain ⟨-, hgive⟩ := Option.ite_none_left_eq_some.mp hgive
    cases hgive
    subst hdescription
    exact .description (toOption_eq_some.mp hs)
  · obtain ⟨decls, hdecls, rfl⟩ := Option.map_eq_some_iff.mp hgiven
    obtain ⟨-, hgive⟩ := Option.ite_none_left_eq_some.mp hgive
    cases hgive
    subst hqueryParameters
    exact .queryParameters (toOption_eq_some.mp hdecls)
  · cases hgiven
    cases hgive
    exact .unknown hdisplayName hdescription hqueryParameters

/-- One more entry of a method gives its field, and leaves the others alone. -/
theorem MethodFields.Say.step {fields fields' : MethodFields} {entries : List (Value × Value)} {e : Value × Value}
    (h : fields.Say entries) (hread : readMethodEntry fields e = .ok fields') : fields'.Say (entries ++ [e]) := by
  obtain ⟨name, hname, hgives⟩ := givesField_of_readMethodEntry hread
  cases hgives with
  | displayName hs =>
    refine ⟨?_, ?_, ?_⟩ <;> rw [lastUnder_append hname]
    · rw [if_pos rfl, Option.map_some, eq_text?_of_readOptionalText hs]
    · exact h.description
    · exact h.queryParameters
  | description hs =>
    refine ⟨?_, ?_, ?_⟩ <;> rw [lastUnder_append hname]
    · exact h.displayName
    · rw [if_pos rfl, Option.map_some, eq_text?_of_readOptionalText hs]
    · exact h.queryParameters
  | queryParameters hdecls =>
    refine ⟨?_, ?_, ?_⟩ <;> rw [lastUnder_append hname]
    · exact h.displayName
    · exact h.description
    · exact spellsParameters_of_readParameters hdecls
  | unknown hdisplayName hdescription hqueryParameters =>
    refine ⟨?_, ?_, ?_⟩ <;> rw [lastUnder_append hname]
    · rw [if_neg (Ne.symm hdisplayName)]
      exact h.displayName
    · rw [if_neg (Ne.symm hdescription)]
      exact h.description
    · rw [if_neg (Ne.symm hqueryParameters)]
      exact h.queryParameters

theorem MethodFields.say_nil : MethodFields.Say {} [] := ⟨rfl, rfl, .absent⟩

/-- The method that fields make is the one that a value spells whose entries say them. -/
theorem MethodFields.Say.spellsMethod {fields : MethodFields} {v : Value} {entries : List (Value × Value)}
    (h : fields.Say entries) (body : bodyEntries? v = some entries) (verb : Verb) :
    SpellsMethod verb v (fields.toMethod verb) := by
  refine .body body rfl ?_ ?_ h.queryParameters
  · show fields.displayName.join.getD "" = _
    rw [h.displayName, ← Option.bind_id_eq_join, Option.bind_map, Function.id_comp]
  · show fields.description.join.getD "" = _
    rw [h.description, ← Option.bind_id_eq_join, Option.bind_map, Function.id_comp]

/-- **The method that is read is the one that the value spells.** -/
theorem spellsMethod_of_readMethod {verb : Verb} {v : Value} {m : Method} (h : readMethod verb v = .ok m) :
    SpellsMethod verb v m := by
  rw [readMethod] at h
  split at h
  case h_1 hnull =>
    cases h
    exact MethodFields.say_nil.spellsMethod (by rw [bodyEntries?, hnull]) verb
  case h_2 entries hmapping =>
    obtain ⟨fields, hfields, rfl⟩ := readMethod_mapping_eq_ok.mp h
    have hsay : fields.Say entries :=
      foldlM_invariant (motive := fun read f => MethodFields.Say f read)
        (fun _ _ _ _ _ hbefore hstep => hbefore.step hstep) MethodFields.say_nil hfields
    exact hsay.spellsMethod (by rw [bodyEntries?, hmapping]) verb
  case h_3 => cases h

end Raml

end RouteStubs
