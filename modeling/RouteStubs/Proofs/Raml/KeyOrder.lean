import Mathlib.Logic.Relation
import RouteStubs.Proofs.Raml.Levels
import RouteStubs.Proofs.Raml.Uniqueness
import RouteStubs.Proofs.Walk.Agreement
/-!
Descriptions that differ in the order of their entries only.

`Reorders` relates two mappings whose entries are permuted. The order of URI parameters is that of their
declarations, and so they are left as they are. Where a later entry takes the place of an earlier one under a key
with the same text, such entries have to keep their order (`parse_swapped`). `readApi_reorders` says of values
that differ by such steps, at any depth, that both can be read or neither, and that the APIs are the same but for
the order of query parameters, with the same walk.

For the API and for resources this follows from what is known of them already: which values can be read and
what they spell depends on the entries but not on their order, and a value spells one API only
(`SpellsApi.unique`). For methods and parameters the entries are read one by one, and reading two of them in
either order comes to the same.
-/

namespace RouteStubs

open Yaml (Value)

namespace Raml

/-! ## §1 Reordering -/

/-- The entries under keys with one text stand in the same order. -/
def SameUnderTexts (es es' : List (Value × Value)) : Prop :=
  ∀ key : String, (es.filter fun e => e.1.text? == some key) = es'.filter fun e => e.1.text? == some key

/-- How the entries of a mapping may be put into another order. At the top, in a resource and in a mapping of
query parameters a later entry takes the place of an earlier one under a key with the same text. The order of URI
parameters is that of their declarations. -/
def Level.MayReorder : Level → List (Value × Value) → List (Value × Value) → Prop
  | api, es, es' => es.Perm es' ∧ SameUnderTexts es es'
  | resource, es, es' => es.Perm es' ∧ SameUnderTexts es es'
  | queryParameters, es, es' => es.Perm es' ∧ SameUnderTexts es es'
  | method, es, es' => es.Perm es'
  | parameter _, es, es' => es.Perm es'
  | uriParameters, _, _ => False
  | leaf, _, _ => False

/-- The second value is the first, a mapping, with its entries in another order. -/
inductive Reorders : Level → Value → Value → Prop
  | intro {level : Level} {es es' : List (Value × Value)} (h : level.MayReorder es es') :
    Reorders level (.mapping es) (.mapping es')

section
variable {es es' : List (Value × Value)}

theorem SameUnderTexts.lastUnder_eq (h : SameUnderTexts es es') (key : String) :
    lastUnder key es = lastUnder key es' := by
  have hfilter : ∀ es : List (Value × Value), lastUnder key es =
      ((es.filter fun e => e.1.text? == some key).reverse.head?).map (·.2) := fun es => by
    rw [lastUnder, ← List.filter_reverse, List.head?_filter]
  rw [hfilter, hfilter, h key]

theorem lookup_filter (field : String) (es : List (Value × Value)) :
    Value.lookup field (es.filter fun e => e.1.text? == some field) = Value.lookup field es := by
  induction es with
  | nil => rfl
  | cons e rest ih =>
    obtain ⟨k, v⟩ := e
    cases k with
    | text key =>
      by_cases hkey : key = field
      · subst hkey
        rw [List.filter_cons_of_pos (by simp [Value.text?, Value.untagged]), Value.lookup, Value.lookup,
          if_pos rfl, if_pos rfl]
      · rw [List.filter_cons_of_neg (by simpa [Value.text?, Value.untagged] using hkey), ih, Value.lookup,
          if_neg hkey]
    | tagged tag w =>
      rw [List.filter_cons]
      split
      · exact ih
      · exact ih
    | _ => exact ih

theorem SameUnderTexts.lookup_eq (h : SameUnderTexts es es') (field : String) :
    Value.lookup field es = Value.lookup field es' := by
  rw [← lookup_filter, h field, lookup_filter]

/-! ## §2 The API and its resources -/

theorem WellFormedResource.perm (h : es.Perm es') (hes : WellFormedResource Value.text? (.mapping es)) :
    WellFormedResource Value.text? (.mapping es') := by
  obtain _ | ⟨keys, displayName, description, uriParameters, methods, children⟩ := hes
  have hback : ∀ e ∈ es', e ∈ es := fun e he => h.mem_iff.mpr he
  exact .mapping (fun e he => keys e (hback e he)) (fun e he => displayName e (hback e he))
    (fun e he => description e (hback e he)) (fun e he => uriParameters e (hback e he))
    (fun e he => methods e (hback e he)) (fun e he => children e (hback e he))

theorem WellFormedApi.perm (h : es.Perm es') (hunder : SameUnderTexts es es')
    (hes : WellFormedApi Value.text? (.mapping es)) : WellFormedApi Value.text? (.mapping es') := by
  obtain ⟨keys, title, version, baseUri, resources⟩ := hes
  have hback : ∀ e ∈ es', e ∈ es := fun e he => h.mem_iff.mpr he
  rw [hunder.lookup_eq] at title version baseUri
  exact .mapping (fun e he => keys e (hback e he)) title version baseUri
    (fun e he => resources e (hback e he))

theorem SameUnderTexts.lastResource_eq (h : SameUnderTexts es es') : lastResource es = lastResource es' := by
  funext key
  rw [lastResource, lastResource, h.lastUnder_eq]

theorem SameUnderTexts.lastMethod_eq (h : SameUnderTexts es es') : lastMethod es = lastMethod es' := by
  funext verb
  rw [lastMethod, lastMethod, h.lastUnder_eq]

theorem Spells.reorder (h : SameUnderTexts es es') {segment : String} {r : Resource}
    (hr : Spells segment (.mapping es) r) : Spells segment (.mapping es') r := by
  obtain _ | ⟨segment_eq, displayName, description, parameters, methods, keys, stored, each⟩ := hr
  rw [h.lastUnder_eq] at displayName description parameters
  rw [h.lastMethod_eq] at methods
  rw [h.lastResource_eq] at stored each
  exact .mapping segment_eq displayName description parameters methods keys stored each

theorem SpellsApi.reorder (h : SameUnderTexts es es') {api : Api} (hapi : SpellsApi (.mapping es) api) :
    SpellsApi (.mapping es') api := by
  obtain ⟨title, version, baseUri, resources⟩ := hapi
  rw [h.lookup_eq] at title version baseUri
  rw [h.lastResource_eq] at resources
  exact .mapping title version baseUri resources

theorem SameUnderTexts.symm (h : SameUnderTexts es es') : SameUnderTexts es' es := fun key => (h key).symm

/-- **The order of the entries of a resource does not matter**, but for those that take each other's place. -/
theorem readResource_reorder (h : es.Perm es') (hunder : SameUnderTexts es es') (path : List String)
    (segment : String) :
    EndAlike Eq (readResource path segment (.mapping es)) (readResource path segment (.mapping es')) := by
  refine .of_isOk_iff ?_ fun r r' hr hr' => ?_
  · rw [readResource_isOk_iff, readResource_isOk_iff]
    exact ⟨.perm h, .perm h.symm⟩
  · exact ((spells_of_readResource hr).reorder hunder).unique (spells_of_readResource hr')

/-- **The order of the entries at the top does not matter**, but for those that take each other's place. -/
theorem readApi_reorder (h : es.Perm es') (hunder : SameUnderTexts es es') :
    EndAlike Eq (readApi (.mapping es)) (readApi (.mapping es')) := by
  refine .of_isOk_iff ?_ fun api api' hapi hapi' => ?_
  · rw [readApi_isOk_iff, readApi_isOk_iff]
    exact ⟨.perm h hunder, .perm h.symm hunder.symm⟩
  · exact ((spellsApi_of_readApi hapi).reorder hunder).unique (spellsApi_of_readApi hapi')

/-! ## §3 Parameters and methods -/

/-- **The order of query parameters does not matter to what is declared of each**, but for those that take each
other's place. -/
theorem readParameters_reorder (h : es.Perm es') (hunder : SameUnderTexts es es') (required : Bool) :
    EndAlike List.Perm (readParameters required (.mapping es)) (readParameters required (.mapping es')) := by
  refine .of_isOk_iff ?_ fun decls decls' hdecls hdecls' => ?_
  · show (∃ decls, readParameterEntries required [] es = .ok decls) ↔
      ∃ decls, readParameterEntries required [] es' = .ok decls
    rw [readParameterEntries_isOk_iff, readParameterEntries_isOk_iff]
    simp only [h.mem_iff]
  · obtain ⟨-, hmem⟩ := declarations_of_readParameterEntries hdecls
    obtain ⟨-, hmem'⟩ := declarations_of_readParameterEntries hdecls'
    have hnodup := (spellsParameters_of_readParameters hdecls).nodup
    have hnodup' := (spellsParameters_of_readParameters hdecls').nodup
    refine (List.perm_ext_iff_of_nodup (.of_map _ hnodup) (.of_map _ hnodup')).mpr fun ⟨name, decl⟩ => ?_
    rw [hmem, hmem', hunder.lastUnder_eq]

end

/-- Two entries that give one field fail in either order, and two that give different ones leave each other
alone. -/
theorem MethodFields.give?_comm (fields : MethodFields) (a b : MethodEntry) :
    ((fields.give? a).bind fun f => f.give? b) = (fields.give? b).bind fun f => f.give? a := by
  cases a <;> cases b <;> simp only [MethodFields.give?, Option.bind_some] <;> split_ifs <;> simp_all

/-- The same for the fields of a parameter. -/
theorem ParameterFields.give?_comm (fields : ParameterFields) (a b : ParameterEntry) :
    ((fields.give? a).bind fun f => f.give? b) = (fields.give? b).bind fun f => f.give? a := by
  cases a <;> cases b <;> simp only [ParameterFields.give?, Option.bind_some] <;> split_ifs <;> simp_all

section
variable {es es' : List (Value × Value)}

/-- **The order of the entries of a method does not matter.** -/
theorem readMethod_reorder (h : es.Perm es') (verb : Verb) :
    EndAlike Eq (readMethod verb (.mapping es)) (readMethod verb (.mapping es')) := by
  have hfields : EndAlike Eq (es.foldlM readMethodEntry {}) (es'.foldlM readMethodEntry {}) := by
    refine .of_toOption_eq ?_
    rw [toOption_foldlM, toOption_foldlM]
    simp only [readMethodEntry_toOption]
    exact foldlM_perm (bind_give_comm MethodFields.give?_comm) h {}
  rw [readMethod_mapping, readMethod_mapping]
  refine hfields.map ?_
  rintro fields _ rfl
  rfl

/-- **The order of the entries of a parameter does not matter.** -/
theorem readParameter_reorder (h : es.Perm es') (required : Bool) :
    readParameter required (.mapping es) = readParameter required (.mapping es') := by
  have hfields : es.foldlM readParameterField? {} = es'.foldlM readParameterField? {} :=
    foldlM_perm (bind_give_comm ParameterFields.give?_comm) h {}
  rw [readParameter_mapping, readParameter_mapping, anyTagIn_eq_any, anyTagIn_eq_any, h.any_eq,
    fieldsOfEntries?_eq, fieldsOfEntries?_eq, hfields]

/-! ## §4 Every level -/

theorem Level.agree_of_mayReorder {level : Level} (h : level.MayReorder es es') :
    level.Agree List.Perm (.mapping es) (.mapping es') := by
  cases level with
  | api =>
    refine (readApi_reorder h.1 h.2).mono ?_
    rintro api _ rfl
    exact .refl (fun _ => .rfl) api
  | resource =>
    intro path segment
    refine (readResource_reorder h.1 h.2 path segment).mono ?_
    rintro r _ rfl
    exact .refl (fun _ => .rfl) r
  | uriParameters => exact h.elim
  | method =>
    intro verb
    refine (readMethod_reorder h verb).mono ?_
    rintro m _ rfl
    exact .refl (fun _ => .rfl) m
  | queryParameters => exact readParameters_reorder h.1 h.2 false
  | parameter required => exact .of_eq (fun _ => rfl) (readParameter_reorder h required)
  | leaf => exact h.elim

theorem Reorders.agree {level : Level} {v v' : Value} (h : Reorders level v v') : level.Agree List.Perm v v' := by
  obtain ⟨hmay⟩ := h
  exact Level.agree_of_mayReorder hmay

end

/-! ## §5 Descriptions -/

/-- **The order of entries does not matter.** Of two values that differ in the order of entries only, both are
read or neither, and the APIs are the same but for the order of query parameters, with the same walk. -/
theorem readApi_reorders {v v' : Value} (h : Relation.ReflTransGen (Within Reorders .api) v v') :
    EndAlike (fun api api' => api.Agrees List.Perm api' ∧ Walk.ofApi api = Walk.ofApi api') (readApi v)
      (readApi v') := by
  have hagree : EndAlike (Api.Agrees List.Perm) (readApi v) (readApi v') := by
    induction h with
    | refl => exact .refl (.refl fun _ => .rfl) _
    | tail _ hstep ih =>
      have hagree := hstep.agree (fun _ => .rfl) fun _ _ _ hreorders => hreorders.agree
      refine EndAlike.trans (fun api api' api'' h h' => ?_) ih hagree
      exact h.trans (fun _ _ _ => .trans) h'
  generalize hv : readApi v = result, readApi v' = result' at hagree
  cases hagree with
  | error => exact .error _ _
  | ok hsame => exact .ok ⟨hsame, Walk.ofApi_eq_of_agrees hsame (declareOnce_of_readApi hv)⟩

/-- The value of a document with one method, which declares query parameters. -/
def oneQuery (parameters : List (Value × Value)) : Value :=
  .mapping [(.text "title", .text "T"), (.text "/a", .mapping [(.text "get",
    .mapping [(.text "displayName", .text "A"), (.text "queryParameters", .mapping parameters)])])]

/-- Two query parameters in either order. -/
theorem readApi_reorders_oneQuery :
    ∃ api api', readApi (oneQuery [(.text "p", .null), (.text "q", .null)]) = .ok api ∧
      readApi (oneQuery [(.text "q", .null), (.text "p", .null)]) = .ok api' ∧
      api.Agrees List.Perm api' ∧ Walk.ofApi api = Walk.ofApi api' := by
  have hunder : SameUnderTexts [(.text "p", .null), (.text "q", .null)]
      [(.text "q", .null), (.text "p", .null)] := by
    intro key
    by_cases hp : "p" = key
    · subst hp
      rfl
    · have hp' : ("p" == key) = false := beq_false_of_ne hp
      simp [List.filter_cons, Value.text?, Value.untagged, hp']
  have hmay : Level.queryParameters.MayReorder [(.text "p", .null), (.text "q", .null)]
      [(.text "q", .null), (.text "p", .null)] := ⟨.swap .., hunder⟩
  have hreorders : Within Reorders .api (oneQuery [(.text "p", .null), (.text "q", .null)])
      (oneQuery [(.text "q", .null), (.text "p", .null)]) := by
    refine .inside (.inside (.inside ?_ [(.text "displayName", .text "A")] []) [] [])
      [(.text "title", .text "T")] []
    exact .here (.intro hmay)
  obtain ⟨api', hread, hagrees, hwalk⟩ := (readApi_reorders (.single hreorders)).exists_of_ok
  exact ⟨_, api', rfl, hread, hagrees, hwalk⟩

/-- The value of a document with a resource under each of two keys, and one method in each. -/
def twoResources (first second : Value × String) : Value :=
  let resource (e : Value × String) : Value × Value :=
    (e.1, .mapping [(.text "get", .mapping [(.text "displayName", .text e.2)])])
  .mapping [(.text "title", .text "T"), resource first, resource second]

set_option maxRecDepth 20000 in
/-- Two texts that differ in the order of two entries with keys of one text, and whose walks differ. -/
theorem parse_swapped :
    (∃ es es', es.Perm es' ∧ twoResources (.text "/a", "A") (.tagged "x" (.text "/a"), "B") = .mapping es ∧
        twoResources (.tagged "x" (.text "/a"), "B") (.text "/a", "A") = .mapping es') ∧
    Value.ofText
          "#%RAML 0.8\ntitle: T\n/a:\n  get:\n    displayName: A\n!x /a:\n  get:\n    displayName: B\n".toList =
        .ok (twoResources (.text "/a", "A") (.tagged "x" (.text "/a"), "B")) ∧
      Value.ofText
          "#%RAML 0.8\ntitle: T\n!x /a:\n  get:\n    displayName: B\n/a:\n  get:\n    displayName: A\n".toList =
        .ok (twoResources (.tagged "x" (.text "/a"), "B") (.text "/a", "A")) ∧
      ∃ api api', readApi (twoResources (.text "/a", "A") (.tagged "x" (.text "/a"), "B")) = .ok api ∧
        readApi (twoResources (.tagged "x" (.text "/a"), "B") (.text "/a", "A")) = .ok api' ∧
        ¬ api.Agrees List.Perm api' ∧ Walk.ofApi api ≠ Walk.ofApi api' := by
  have hread : readApi (twoResources (.text "/a", "A") (.tagged "x" (.text "/a"), "B")) = .ok _ := rfl
  refine ⟨⟨_, _, .cons _ (.swap ..), rfl, rfl⟩, rfl, rfl, _, _, hread, rfl, ?_⟩
  refine (and_iff_right_of_imp fun hwalk h => hwalk ?agree).mpr ?walk
  case walk => decide +kernel
  case agree => exact Walk.ofApi_eq_of_agrees h (declareOnce_of_readApi hread)

end Raml

end RouteStubs
