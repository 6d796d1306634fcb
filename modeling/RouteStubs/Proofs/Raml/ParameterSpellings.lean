import RouteStubs.Proofs.Raml.KeyOrder
/-!
Parameters that are spelled in different ways.

A parameter may be declared by nothing, by the name of its type or by a mapping of its fields, and from a mapping
a field may be left out that says what goes without saying. `Respells` relates two spellings of one declaration.

A field may be given by its number as well. So the mapping `{2: integer}` gives the type already, and with one more
field of that name, be it without a value, nothing can be read of it. Those are the spellings that `Respells`
leaves out and `GivesAgain` describes; `parse_typeByNumber` is a description of that kind.

* `readApi_respells` — values that differ by `Respells`, at any depth and in either direction, are one API. With a
  field given again nothing is read, and the default of `required` is not asked where an entry gives it.
-/

namespace RouteStubs.Raml

open Yaml (Value)

/-! ## §1 Fields that have been given -/

/-- The field has been given, be it as nothing. -/
def ParameterFields.given (fields : ParameterFields) : ParameterField → Bool
  | .displayName => fields.displayName.isSome
  | .description => fields.description.isSome
  | .type => fields.type.isSome
  | .pattern => fields.pattern.isSome
  | .required => fields.required.isSome

/-- An entry gives this field, under its name or its number. -/
def Gives (field : ParameterField) (es : List (Value × Value)) : Prop :=
  ∃ e ∈ es, fieldOfKey e.1 = some (some field)

section
variable {fields fields' : ParameterFields} {field : ParameterField}

theorem ParameterFields.set?_of_given (h : fields.given field = true) (x : Value) : fields.set? x field = none := by
  cases field <;> exact if_pos h

theorem ParameterFields.given_set? {x : Value} (h : fields.set? x field = some fields') (other : ParameterField) :
    fields'.given other = true ↔ fields.given other = true ∨ field = other := by
  cases field <;> simp only [set?, Option.ite_none_left_eq_some, Option.map_eq_some_iff] at h <;>
    obtain ⟨-, value, -, rfl⟩ := h <;> cases other <;> simp [given]

/-- To give a field as nothing says no more than not to give it. -/
theorem ParameterFields.set?_null (h : fields.given field = false) :
    ∃ fields', fields.set? .null field = some fields' ∧
      ∀ required, fields'.toDecl required = fields.toDecl required := by
  cases field <;> refine ⟨_, if_neg (Bool.eq_false_iff.mp h), fun required => ?_⟩ <;>
    simp_all [given, toDecl]

/-- To give the default of `required` says no more than not to give it. -/
theorem ParameterFields.set?_default (h : fields.given .required = false) (required : Bool) :
    ∃ fields', fields.set? (.bool required) .required = some fields' ∧
      fields'.toDecl required = fields.toDecl required := by
  refine ⟨_, if_neg (Bool.eq_false_iff.mp h), ?_⟩
  simp_all [given, toDecl]

/-! ## §2 The mapping of a parameter -/

variable {before after es : List (Value × Value)}

theorem gives_cons {k v : Value} :
    Gives field ((k, v) :: es) ↔ fieldOfKey k = some (some field) ∨ Gives field es := by
  simp [Gives]

/-- **A field has been given exactly if it was before or an entry gives it.** -/
theorem given_of_fieldsOfEntries? (h : fieldsOfEntries? fields es = some fields') (field : ParameterField) :
    fields'.given field = true ↔ fields.given field = true ∨ Gives field es := by
  induction es generalizing fields with
  | nil =>
    obtain rfl := Option.some.inj h
    simp [Gives]
  | cons e rest ih =>
    obtain ⟨k, v⟩ := e
    rw [fieldsOfEntries?] at h
    rw [gives_cons]
    cases hkey : fieldOfKey k with
    | none =>
      rw [hkey] at h
      cases h
    | some field? =>
      rw [hkey] at h
      cases field? with
      | none => simpa using ih h
      | some other =>
        obtain ⟨next, hset, hrest⟩ := Option.bind_eq_some_iff.mp h
        rw [ih hrest, ParameterFields.given_set? hset, or_assoc]
        simp

/-- The field that one more entry gives can be given last. -/
theorem fieldsOfEntries?_insert {k : Value} (hk : fieldOfKey k = some (some field)) (x : Value) :
    fieldsOfEntries? {} (before ++ (k, x) :: after) =
      (fieldsOfEntries? {} (before ++ after)).bind fun fields => fields.set? x field := by
  have hperm : (before ++ (k, x) :: after).Perm ((before ++ after) ++ [(k, x)]) :=
    List.perm_middle.trans (List.perm_append_singleton ..).symm
  have hmoved : (before ++ (k, x) :: after).foldlM readParameterField? {} =
      ((before ++ after) ++ [(k, x)]).foldlM readParameterField? {} :=
    foldlM_perm (bind_give_comm ParameterFields.give?_comm) hperm {}
  have hlast : ∀ fields : ParameterFields, [(k, x)].foldlM readParameterField? fields = fields.set? x field := by
    intro fields
    rw [← fieldsOfEntries?_eq, fieldsOfEntries?, hk]
    exact Option.bind_fun_some _
  rw [fieldsOfEntries?_eq, fieldsOfEntries?_eq, hmoved, List.foldlM_append]
  exact congrArg _ (funext hlast)

theorem anyTagIn_insert {k x : Value} (hk : fieldOfKey k = some (some field)) (hx : hasTag x = false) :
    anyTagIn (before ++ (k, x) :: after) = anyTagIn (before ++ after) := by
  have hkey : hasTag k = false := by
    cases k with
    | tagged tag v => cases hk
    | sequence items => cases hk
    | mapping entries => cases hk
    | _ => rfl
  rw [anyTagIn_eq_any, anyTagIn_eq_any, List.any_append, List.any_append, List.any_cons, hkey, hx]
  rfl

/-- **An entry that says what goes without saying can be left out**, where no other gives its field. -/
theorem readParameter_insert_alike {required : Bool} {k x : Value}
    (hk : fieldOfKey k = some (some field)) (hx : hasTag x = false) (hnew : ¬ Gives field (before ++ after))
    (hset : ∀ fields : ParameterFields, fields.given field = false →
      ∃ fields', fields.set? x field = some fields' ∧ fields'.toDecl required = fields.toDecl required) :
    readParameter required (.mapping (before ++ after)) =
      readParameter required (.mapping (before ++ (k, x) :: after)) := by
  rw [readParameter_mapping, readParameter_mapping, anyTagIn_insert hk hx, fieldsOfEntries?_insert hk]
  cases hfields : fieldsOfEntries? {} (before ++ after) with
  | none => rfl
  | some fields =>
    have hgiven : fields.given field = false := by
      refine Bool.eq_false_iff.mpr fun h => hnew ?_
      refine ((given_of_fieldsOfEntries? hfields field).mp h).resolve_left ?_
      cases field <;> simp [ParameterFields.given]
    obtain ⟨fields', heq, hdecl⟩ := hset fields hgiven
    simp only [Option.bind_some, heq, hdecl]

/-- **A field that is given twice leaves nothing to read.** -/
theorem readParameter_insert_of_gives {required : Bool} {k : Value} (hk : fieldOfKey k = some (some field))
    (h : Gives field (before ++ after)) (x : Value) (decl : ParameterDecl) :
    readParameter required (.mapping (before ++ (k, x) :: after)) ≠ .ok decl := by
  rw [readParameter_mapping, fieldsOfEntries?_insert hk]
  split
  case isTrue => simp
  case isFalse =>
    cases hfields : fieldsOfEntries? {} (before ++ after) with
    | none => simp
    | some fields =>
      have hgiven := (given_of_fieldsOfEntries? hfields field).mpr (.inr h)
      simp [ParameterFields.set?_of_given hgiven]

theorem readParameter_mapping_eq_ok {required : Bool} {decl : ParameterDecl} :
    readParameter required (.mapping es) = .ok decl ↔
      anyTagIn es = false ∧ ∃ fields, fieldsOfEntries? {} es = some fields ∧ fields.toDecl required = decl := by
  rw [readParameter_mapping]
  cases htag : anyTagIn es with
  | true => simp
  | false => cases fieldsOfEntries? {} es <;> simp

/-- **Where an entry says whether the parameter is required, the default is not asked.** -/
theorem readParameter_of_mem_required {k : Value} {b : Bool} (hk : fieldOfKey k = some (some .required))
    (hmem : (k, .bool b) ∈ es) (required required' : Bool) :
    EndAlike (fun decl decl' => decl = decl' ∧ decl.required = b) (readParameter required (.mapping es))
      (readParameter required' (.mapping es)) := by
  have hsaid : ∀ fields, fieldsOfEntries? {} es = some fields → fields.required = some (some b) := by
    intro fields hfields
    obtain ⟨before, after, rfl⟩ := List.append_of_mem hmem
    rw [fieldsOfEntries?_insert hk] at hfields
    obtain ⟨others, -, hset⟩ := Option.bind_eq_some_iff.mp hfields
    simp only [ParameterFields.set?, plainBool?, Option.ite_none_left_eq_some, Option.map_some] at hset
    rw [← Option.some.inj hset.2]
  refine .of_isOk_iff ?_ fun decl decl' h h' => ?_
  · simp only [readParameter_mapping_eq_ok]
    tauto
  · obtain ⟨-, fields, hfields, rfl⟩ := readParameter_mapping_eq_ok.mp h
    obtain ⟨-, fields', hfields', rfl⟩ := readParameter_mapping_eq_ok.mp h'
    obtain rfl : fields = fields' := Option.some.inj (hfields.symm.trans hfields')
    simp [ParameterFields.toDecl, hsaid fields hfields]

end

/-! ## §3 Spellings of one declaration -/

/-- The second value declares the parameter that the first declares, and is longer: nothing and the name of a type
are spelled as mappings, and a mapping has one more entry, which says what goes without saying. -/
inductive Respells : Level → Value → Value → Prop
  | empty (required : Bool) : Respells (.parameter required) .null (.mapping [])
  | typeDefault (required : Bool) :
    Respells (.parameter required) .null (.mapping [(.text "type", .text "string")])
  | typeName (required : Bool) (s : String) :
    Respells (.parameter required) (.text s) (.mapping [(.text "type", .text s)])
  | nothing (required : Bool) {field : ParameterField} {k : Value} (hk : fieldOfKey k = some (some field))
    {before after : List (Value × Value)} (h : ¬ Gives field (before ++ after)) :
    Respells (.parameter required) (.mapping (before ++ after)) (.mapping (before ++ (k, .null) :: after))
  | default (required : Bool) {before after : List (Value × Value)} (h : ¬ Gives .required (before ++ after)) :
    Respells (.parameter required) (.mapping (before ++ after))
      (.mapping (before ++ (.text "required", .bool required) :: after))

/-- The second value is the first, the mapping of a parameter, with one more entry for a field that it gives. -/
inductive GivesAgain : Level → Value → Value → Prop
  | intro (required : Bool) {field : ParameterField} {k : Value} (hk : fieldOfKey k = some (some field))
    {before after : List (Value × Value)} (h : Gives field (before ++ after)) (x : Value) :
    GivesAgain (.parameter required) (.mapping (before ++ after)) (.mapping (before ++ (k, x) :: after))

section
variable {level : Level} {v v' : Value}

theorem Respells.agree (h : Respells level v v') : level.Agree Eq v v' := by
  cases h with
  | empty required => exact .ok rfl
  | typeDefault required => exact .ok rfl
  | typeName required s => exact .ok rfl
  | nothing required hk h =>
    refine .of_eq (fun _ => rfl) (readParameter_insert_alike hk rfl h fun fields hgiven => ?_)
    obtain ⟨fields', hset, hdecl⟩ := fields.set?_null hgiven
    exact ⟨fields', hset, hdecl required⟩
  | default required h =>
    exact .of_eq (fun _ => rfl)
      (readParameter_insert_alike rfl rfl h fun fields hgiven => fields.set?_default hgiven required)

theorem GivesAgain.not_readable (h : GivesAgain level v v') : ¬ level.Readable v' := by
  obtain ⟨required, hk, hgives, x⟩ := h
  rintro ⟨decl, hdecl⟩
  exact readParameter_insert_of_gives hk hgives x decl hdecl

/-- **Spellings do not matter.** Values that differ in the spelling of parameters, at any depth and in either
direction, are one API with one walk, or neither can be read. If a parameter gives a field that it gives already,
nothing can be read. And where a parameter says whether it is required, both defaults make the same of it. -/
theorem readApi_respells (v : Value) (es : List (Value × Value)) :
    (∀ v', Relation.EqvGen (Within Respells .api) v v' →
      EndAlike (fun api api' => api = api' ∧ Walk.ofApi api = Walk.ofApi api') (readApi v) (readApi v')) ∧
    (∀ v', Within GivesAgain .api v v' → ∀ api, readApi v' ≠ .ok api) ∧
    ∀ (k : Value) (b : Bool), fieldOfKey k = some (some .required) →
      (k, .bool b) ∈ es → EndAlike (fun decl decl' => decl = decl' ∧ decl.required = b)
        (readParameter true (.mapping es)) (readParameter false (.mapping es)) := by
  refine ⟨fun v' h => ?spellings, fun v' h api hapi => ?again, fun k b hk hmem => ?required⟩
  case spellings =>
    have hsame : EndAlike Eq (readApi v) (readApi v') := by
      induction h with
      | rel v v' hstep =>
        have hagree : EndAlike (Api.Agrees Eq) (readApi v) (readApi v') :=
          hstep.agree (fun _ => rfl) fun _ _ _ hrespells => hrespells.agree
        exact hagree.mono fun _ _ hsame => hsame.eq
      | refl v => exact .refl (fun _ => rfl) _
      | symm v v' _ ih => exact ih.symm fun _ _ => Eq.symm
      | trans v v' v'' _ _ ih ih' => exact EndAlike.trans (fun _ _ _ hab hbc => hab.trans hbc) ih ih'
    refine hsame.mono ?_
    rintro api _ rfl
    exact ⟨rfl, rfl⟩
  case again => exact h.not_readable (fun _ _ _ hagain => hagain.not_readable) ⟨api, hapi⟩
  case required => exact readParameter_of_mem_required hk hmem true false

end

/-- The value of a document that declares one parameter. -/
def declaresId (declaration : Value) : Value :=
  .mapping [(.text "title", .text "T"), (.text "/a", .mapping [(.text "uriParameters",
    .mapping [(.text "id", declaration)])])]

theorem within_declaresId {Change : Level → Value → Value → Prop} {v v' : Value}
    (h : Change (.parameter true) v v') : Within Change .api (declaresId v) (declaresId v') :=
  .inside (.inside (.inside (.here h) [] []) [] []) [(.text "title", .text "T")] []

/-- A parameter declared by nothing and one that says so, a type given twice, and a parameter that is not
required. -/
theorem readApi_respells_declaresId :
    (∃ api, readApi (declaresId .null) = .ok api ∧
      readApi (declaresId (.mapping [(.text "pattern", .null), (.text "required", .bool true)])) = .ok api) ∧
    (∀ api, readApi (declaresId (.mapping [(.text "type", .null), (.text "type", .text "integer")])) ≠ .ok api) ∧
    ∃ decl, readParameter true (.mapping [(.text "required", .bool false)]) = .ok decl ∧
      readParameter false (.mapping [(.text "required", .bool false)]) = .ok decl ∧ decl.required = false := by
  refine ⟨?_, ?_, ?_⟩
  · have hpattern : ¬ Gives .pattern ([] ++ [(.text "required", .bool true)]) := by
      simp [Gives, fieldOfKey, ParameterField.ofName?]
    have hunset : ¬ Gives .required ([] ++ []) := by simp [Gives]
    have hnothing : Respells (.parameter true) (.mapping [(.text "required", .bool true)])
        (.mapping [(.text "pattern", .null), (.text "required", .bool true)]) :=
      .nothing true (k := .text "pattern") rfl hpattern
    have hchain := ((Relation.EqvGen.rel _ _ (within_declaresId (.empty true))).trans _ _ _
      (.rel _ _ (within_declaresId (.default true hunset)))).trans _ _ _
        (.rel _ _ (within_declaresId hnothing))
    obtain ⟨api, hread, rfl, -⟩ := ((readApi_respells (declaresId .null) []).1 _ hchain).exists_of_ok
    exact ⟨_, rfl, hread⟩
  · have htwice : Gives .type ([] ++ [(.text "type", .text "integer")]) := ⟨_, List.mem_cons_self .., rfl⟩
    exact (readApi_respells _ []).2.1 _ (within_declaresId (.intro true (k := .text "type") rfl htwice .null))
  · obtain ⟨decl, hread, rfl, hsaid⟩ := ((readApi_respells .null [(.text "required", .bool false)]).2.2
      (.text "required") false rfl (by simp)).exists_of_ok
    exact ⟨_, rfl, hread, hsaid⟩

set_option maxRecDepth 20000 in
/-- A text that is read, and that is not once a field without a value is added. The field has been given already,
by its number. -/
theorem parse_typeByNumber :
    Value.ofText "#%RAML 0.8\ntitle: T\n/a:\n  uriParameters:\n    id: \x7b2: integer\x7d\n".toList =
        .ok (declaresId (.mapping [(.number (.integer 2), .text "integer")])) ∧
      Value.ofText "#%RAML 0.8\ntitle: T\n/a:\n  uriParameters:\n    id: \x7btype: ~, 2: integer\x7d\n".toList =
        .ok (declaresId (.mapping [(.text "type", .null), (.number (.integer 2), .text "integer")])) ∧
      (∃ api, parse "#%RAML 0.8\ntitle: T\n/a:\n  uriParameters:\n    id: \x7b2: integer\x7d\n" = .ok api) ∧
      ∀ api, parse "#%RAML 0.8\ntitle: T\n/a:\n  uriParameters:\n    id: \x7btype: ~, 2: integer\x7d\n" ≠
        .ok api := by
  have hroot : Value.ofText "#%RAML 0.8\ntitle: T\n/a:\n  uriParameters:\n    id: \x7b2: integer\x7d\n".toList =
      .ok (declaresId (.mapping [(.number (.integer 2), .text "integer")])) := rfl
  have hroot' : Value.ofText
      "#%RAML 0.8\ntitle: T\n/a:\n  uriParameters:\n    id: \x7btype: ~, 2: integer\x7d\n".toList =
      .ok (declaresId (.mapping [(.text "type", .null), (.number (.integer 2), .text "integer")])) := rfl
  refine ⟨hroot, hroot', ⟨_, (parse_eq_ok (by decide +kernel) hroot).mpr rfl⟩, fun api h => ?_⟩
  cases (parse_eq_ok (by decide +kernel) hroot').mp h

end RouteStubs.Raml
