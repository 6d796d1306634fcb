import RouteStubs.Proofs.Raml.Levels
/-!
The shapes that the body of a method and the declarations of parameters may have.

`Level.Documented` says which shapes a value may have where it stands, `Stands` that a value stands somewhere in
a document, at any depth, and `parse_undocumented` that a text with a value of another shape anywhere in it is
refused.

One shape is read although it is not documented: a list of five values as the declaration of a parameter, which
are taken as its fields in order (`IsFieldList`). `parse_fieldList` is a text with one.
-/

namespace RouteStubs.Raml

open Yaml (Value)

/-! ## §1 Shapes -/

/-- Nothing, or a text. -/
def IsTextOrNull (v : Value) : Prop := v = .null ∨ ∃ s, v = .text s

/-- Nothing, or a boolean. -/
def IsBoolOrNull (v : Value) : Prop := v = .null ∨ ∃ b, v = .bool b

/-- Nothing, or a mapping. -/
def IsMappingOrNull (v : Value) : Prop := v = .null ∨ ∃ entries, v = .mapping entries

/-- The list gives the fields of a parameter by their order: the name, the description, the type and the pattern
as texts, whether it is required as a boolean, and nothing in place of any of them. -/
def IsFieldList (items : List Value) : Prop :=
  ∃ name description type pattern required, items = [name, description, type, pattern, required] ∧
    (IsTextOrNull name ∧ IsTextOrNull description ∧ IsTextOrNull type ∧ IsTextOrNull pattern) ∧
      IsBoolOrNull required

namespace Level

/-- The shapes that are documented. The body of a method and the value of parameters are nothing or a mapping,
tags aside. The declaration of one parameter is nothing, a text or a mapping. -/
def Documented : Level → Value → Prop
  | method, v => IsMappingOrNull v.untagged
  | uriParameters, v => IsMappingOrNull v.untagged
  | queryParameters, v => IsMappingOrNull v.untagged
  | parameter _, v => IsTextOrNull v ∨ IsMappingOrNull v
  | _, _ => True

/-- The one shape that is read although it is not documented. -/
def TakesList : Level → Value → Prop
  | parameter _, .sequence items => IsFieldList items
  | _, _ => False

end Level

/-- The value `x` stands in another one, at any depth, where it is read at the level `inner`. -/
inductive Stands (inner : Level) (x : Value) : Level → Value → Prop
  | here : Stands inner x inner x
  | inside {level : Level} {entries : List (Value × Value)} {k v : Value} (hmem : (k, v) ∈ entries)
    (h : Stands inner x (level.below k) v) : Stands inner x level (.mapping entries)
  | tagged {level : Level} {v : Value} (h : Stands inner x level v) (tag : String) :
    Stands inner x level (.tagged tag v)

/-- **Where something can be read of a value, something can be read of everything in it.** -/
theorem Stands.readable {inner level : Level} {x v : Value} (h : Stands inner x level v)
    (hv : level.Readable v) : inner.Readable x := by
  induction h with
  | here => exact hv
  | inside hmem _ ih => exact ih (Level.readable_of_mem hv hmem)
  | tagged _ _ ih => exact ih (Level.readable_of_tagged hv)

/-! ## §2 What can be read of other shapes -/

theorem plainText?_isSome_iff {v : Value} : (∃ s, plainText? v = some s) ↔ IsTextOrNull v := by
  cases v <;> simp [plainText?, IsTextOrNull]

theorem plainBool?_isSome_iff {v : Value} : (∃ b, plainBool? v = some b) ↔ IsBoolOrNull v := by
  cases v <;> simp [plainBool?, IsBoolOrNull]

/-- A list is read as fields exactly if it gives all five. -/
theorem fieldsOfItems?_isSome_iff {items : List Value} :
    (∃ fields, fieldsOfItems? {} ParameterField.all items = some fields) ↔ IsFieldList items := by
  constructor
  · rintro ⟨fields, h⟩
    -- one field is read from each value, so there are no more and no fewer
    rcases items with _ | ⟨a, _ | ⟨b, _ | ⟨c, _ | ⟨d, _ | ⟨e, _ | ⟨f, rest⟩⟩⟩⟩⟩⟩
    all_goals simp [fieldsOfItems?, ParameterField.all, ParameterFields.set?, Option.bind_eq_some_iff] at h
    obtain ⟨_, ha, _, hb, _, hc, _, hd, _, he, -⟩ := h
    exact ⟨a, b, c, d, e, rfl, ⟨plainText?_isSome_iff.mp ⟨_, ha⟩, plainText?_isSome_iff.mp ⟨_, hb⟩,
      plainText?_isSome_iff.mp ⟨_, hc⟩, plainText?_isSome_iff.mp ⟨_, hd⟩⟩, plainBool?_isSome_iff.mp ⟨_, he⟩⟩
  · rintro ⟨a, b, c, d, e, rfl, ⟨ha, hb, hc, hd⟩, he⟩
    obtain ⟨_, ha⟩ := plainText?_isSome_iff.mpr ha
    obtain ⟨_, hb⟩ := plainText?_isSome_iff.mpr hb
    obtain ⟨_, hc⟩ := plainText?_isSome_iff.mpr hc
    obtain ⟨_, hd⟩ := plainText?_isSome_iff.mpr hd
    obtain ⟨_, he⟩ := plainBool?_isSome_iff.mpr he
    simp [fieldsOfItems?, ParameterField.all, ParameterFields.set?, ha, hb, hc, hd, he]

theorem hasTag_of_isTextOrNull {v : Value} (h : IsTextOrNull v) : hasTag v = false := by
  obtain rfl | ⟨s, rfl⟩ := h <;> rfl

theorem hasTag_of_isBoolOrNull {v : Value} (h : IsBoolOrNull v) : hasTag v = false := by
  obtain rfl | ⟨b, rfl⟩ := h <;> rfl

theorem anyTag_of_isFieldList {items : List Value} (h : IsFieldList items) : anyTag items = false := by
  obtain ⟨a, b, c, d, e, rfl, ⟨ha, hb, hc, hd⟩, he⟩ := h
  simp [anyTag, hasTag_of_isTextOrNull ha, hasTag_of_isTextOrNull hb, hasTag_of_isTextOrNull hc,
    hasTag_of_isTextOrNull hd, hasTag_of_isBoolOrNull he]

/-- **A list declares a parameter exactly if it gives the five fields in order.** -/
theorem readParameter_sequence_isOk_iff {required : Bool} {items : List Value} :
    (∃ decl, readParameter required (.sequence items) = .ok decl) ↔ IsFieldList items := by
  have htag : hasTag (.sequence items) = anyTag items := rfl
  rw [readParameter, htag]
  dsimp only
  constructor
  · rintro ⟨decl, h⟩
    split at h
    · cases h
    · split at h
      · next fields hfields => exact fieldsOfItems?_isSome_iff.mp ⟨fields, hfields⟩
      · cases h
  · intro h
    obtain ⟨fields, hfields⟩ := fieldsOfItems?_isSome_iff.mpr h
    rw [anyTag_of_isFieldList h, hfields]
    exact ⟨_, rfl⟩

theorem isMappingOrNull_of_readMethod {verb : Verb} {v : Value} {m : Method} (h : readMethod verb v = .ok m) :
    IsMappingOrNull v.untagged := by
  rw [readMethod] at h
  split at h
  · next hv => exact .inl hv
  · next entries hv => exact .inr ⟨entries, hv⟩
  · cases h

theorem isMappingOrNull_of_readParameters {required : Bool} {v : Value} {decls : ParameterDecls}
    (h : readParameters required v = .ok decls) : IsMappingOrNull v.untagged := by
  rw [readParameters] at h
  split at h
  · next hv => exact .inl hv
  · next entries hv => exact .inr ⟨entries, hv⟩
  · cases h

/-- **Of a value whose shape is not documented nothing can be read**, but for a list of fields. -/
theorem Level.readable_iff_of_undocumented {level : Level} {v : Value} (h : ¬ level.Documented v) :
    level.Readable v ↔ level.TakesList v := by
  cases level with
  | method => exact ⟨fun ⟨verb, m, hm⟩ => absurd (isMappingOrNull_of_readMethod hm) h, False.elim⟩
  | uriParameters => exact ⟨fun ⟨decls, hd⟩ => absurd (isMappingOrNull_of_readParameters hd) h, False.elim⟩
  | queryParameters => exact ⟨fun ⟨decls, hd⟩ => absurd (isMappingOrNull_of_readParameters hd) h, False.elim⟩
  | parameter required =>
    cases v with
    | null => exact absurd (.inl (.inl rfl)) h
    | text s => exact absurd (.inl (.inr ⟨s, rfl⟩)) h
    | mapping entries => exact absurd (.inr (.inr ⟨entries, rfl⟩)) h
    | sequence items => exact readParameter_sequence_isOk_iff
    | _ =>
      refine ⟨?_, False.elim⟩
      rintro ⟨decl, hdecl⟩
      cases hdecl
  | _ => exact absurd trivial h

/-! ## §3 Texts -/

/-- **A text with a value of a shape that is not documented is refused**, wherever in it the body of a method, the
value of parameters or the declaration of a parameter has that shape. The one exception is a list of the fields of
a parameter, of which a declaration is read. -/
theorem parse_undocumented {text : String} {root : Value} (hheader : hasHeader text.toList = true)
    (hroot : Value.ofText text.toList = .ok root) {inner : Level} {x : Value} (hstands : Stands inner x .api root)
    (hshape : ¬ inner.Documented x) :
    (¬ inner.TakesList x → ∃ problem span, parse text = .error (.invalid problem span)) ∧
      (inner.TakesList x → inner.Readable x) := by
  refine ⟨fun hlist => ?_, (Level.readable_iff_of_undocumented hshape).mpr⟩
  cases hread : readApi root with
  | error fault => exact ⟨_, _, parse_eq_error hheader hroot hread⟩
  | ok api =>
    have hreadable : inner.Readable x := hstands.readable ⟨api, hread⟩
    exact absurd ((Level.readable_iff_of_undocumented hshape).mp hreadable) hlist

/-- A text with a method below a resource below a resource, where a query parameter is declared by a number. -/
def numberAsParameter : String :=
  "#%RAML 0.8\ntitle: T\n/a:\n  /b:\n    get:\n      queryParameters:\n        q: 7\n"

set_option maxRecDepth 20000 in
theorem parse_undocumented_numberAsParameter :
    ∃ problem span, parse numberAsParameter = .error (.invalid problem span) := by
  let root : Value := .mapping [(.text "title", .text "T"), (.text "/a", .mapping [(.text "/b",
    .mapping [(.text "get", .mapping [(.text "queryParameters",
      .mapping [(.text "q", .number (.integer 7))])])])])]
  have hroot : Value.ofText numberAsParameter.toList = .ok root := rfl
  have hstands : Stands (.parameter false) (.number (.integer 7)) .api root :=
    .inside (List.mem_cons_of_mem _ List.mem_cons_self) <| .inside List.mem_cons_self <|
      .inside List.mem_cons_self <| .inside List.mem_cons_self <| .inside List.mem_cons_self .here
  have hshape : ¬ (Level.parameter false).Documented (.number (.integer 7)) := by
    simp [Level.Documented, IsTextOrNull, IsMappingOrNull]
  exact (parse_undocumented (by decide +kernel) hroot hstands hshape).1 False.elim

/-- A text with a parameter that is declared by a list. -/
def listAsParameter : String := "#%RAML 0.8\ntitle: T\n/a:\n  uriParameters:\n    id: [~, ~, integer, ~, true]\n"

set_option maxRecDepth 20000 in
/-- The text with the list is read. -/
theorem parse_fieldList :
    let items := [.null, .null, .text "integer", .null, .bool true]
    let root := .mapping [(.text "title", .text "T"), (.text "/a", .mapping [(.text "uriParameters",
      .mapping [(.text "id", .sequence items)])])]
    hasHeader listAsParameter.toList = true ∧ Value.ofText listAsParameter.toList = .ok root ∧
      Stands (.parameter true) (.sequence items) .api root ∧
      ¬ (Level.parameter true).Documented (.sequence items) ∧ ∃ api, parse listAsParameter = .ok api := by
  intro items root
  have hheader : hasHeader listAsParameter.toList = true := by decide +kernel
  have hroot : Value.ofText listAsParameter.toList = .ok root := rfl
  refine ⟨hheader, hroot, ?_, ?_, _, (parse_eq_ok hheader hroot).mpr rfl⟩
  · exact .inside (List.mem_cons_of_mem _ List.mem_cons_self) <| .inside List.mem_cons_self <|
      .inside List.mem_cons_self .here
  · simp [Level.Documented, IsTextOrNull, IsMappingOrNull]

end RouteStubs.Raml
