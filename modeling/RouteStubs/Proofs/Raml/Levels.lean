import RouteStubs.Proofs.Agreement
import RouteStubs.Proofs.Raml.Grammar
/-!
What is read of a value, level by level.

The mappings of a description stand inside one another: the API, its resources, their methods, and the
parameters of both. A `Level` is what a value is read as, and `Level.below` is the level of the value under a
key of a mapping. `Level.Agree` says of two values that the same is read of them, or nothing of either.

* `Level.agree_mapping` — mappings agree if their entries do, one by one.
* `Level.readable_of_mem` — where a mapping can be read, each of its values can.
* `Within.agree`, `Within.not_readable` — what a change at one place means for the value around it.
-/

namespace RouteStubs.Raml

open Yaml (Value)

/-! ## §1 Levels -/

/-- What a value is read as. -/
inductive Level where
  | api
  | resource
  | uriParameters
  | method
  | queryParameters
  /-- One parameter, and whether it is required by default. -/
  | parameter (required : Bool)
  /-- A scalar, or a value that is passed over. -/
  | leaf
  deriving DecidableEq, Repr

namespace Level

/-- What the value under a key with this text is read as, in a mapping at this level. -/
def belowText : Level → String → Level
  | api, key => if isResourceKey key then resource else leaf
  | resource, key =>
    match Member.ofKey key with
    | .uriParameters => uriParameters
    | .child => resource
    | .method _ => method
    | _ => leaf
  | method, key => if key = "queryParameters" then queryParameters else leaf
  | uriParameters, _ => parameter true
  | queryParameters, _ => parameter false
  | parameter _, _ => leaf
  | leaf, _ => leaf

/-- What the value under a key is read as, in a mapping at this level. -/
def below (level : Level) (k : Value) : Level := k.text?.elim leaf level.belowText

theorem below_eq {level : Level} {k : Value} {key : String} (h : k.text? = some key) :
    level.below k = level.belowText key := by
  rw [below, h]
  rfl

/-- At this level something can be read of the value. -/
def Readable : Level → Value → Prop
  | api, v => ∃ a, readApi v = .ok a
  | resource, v => ∃ path segment r, readResource path segment v = .ok r
  | uriParameters, v => ∃ decls, readParameters true v = .ok decls
  | method, v => ∃ verb m, readMethod verb v = .ok m
  | queryParameters, v => ∃ decls, readParameters false v = .ok decls
  | parameter required, v => ∃ decl, readParameter required v = .ok decl
  | leaf, _ => True

section
variable (Same : ParameterDecls → ParameterDecls → Prop)

/-- At this level the same is read of the two values, or nothing is read of either. `Same` says which query
parameters count as the same. -/
def Agree : Level → Value → Value → Prop
  | api, v, v' => EndAlike (Api.Agrees Same) (readApi v) (readApi v')
  | resource, v, v' => ∀ path segment,
    EndAlike (Resource.Agrees Same) (readResource path segment v) (readResource path segment v')
  | uriParameters, v, v' => EndAlike Eq (readParameters true v) (readParameters true v')
  | method, v, v' => ∀ verb, EndAlike (Method.Agrees Same) (readMethod verb v) (readMethod verb v')
  | queryParameters, v, v' => EndAlike Same (readParameters false v) (readParameters false v')
  | parameter required, v, v' => EndAlike Eq (readParameter required v) (readParameter required v')
  | leaf, v, v' => v = v'

/-- The entries have one key and values of which the same is read. -/
def AgreeEntry (level : Level) (e e' : Value × Value) : Prop :=
  e.1 = e'.1 ∧ (level.below e.1).Agree Same e.2 e'.2

end

variable {Same : ParameterDecls → ParameterDecls → Prop}

theorem agree_refl (hrefl : ∀ decls, Same decls decls) (level : Level) (v : Value) : level.Agree Same v v := by
  cases level with
  | api => exact .refl (Api.Agrees.refl hrefl) _
  | resource => exact fun _ _ => .refl (Resource.Agrees.refl hrefl) _
  | uriParameters => exact .refl (fun _ => rfl) _
  | method => exact fun _ => .refl (Method.Agrees.refl hrefl) _
  | queryParameters => exact .refl hrefl _
  | parameter required => exact .refl (fun _ => rfl) _
  | leaf => rfl

/-- Where one value is replaced by one that agrees with it, the entries agree one by one. -/
theorem agreeEntry_replace (hrefl : ∀ decls, Same decls decls) {level : Level} {k v v' : Value}
    (h : (level.below k).Agree Same v v') (before after : List (Value × Value)) :
    List.Forall₂ (level.AgreeEntry Same) (before ++ (k, v) :: after) (before ++ (k, v') :: after) := by
  have hself : ∀ es : List (Value × Value), List.Forall₂ (level.AgreeEntry Same) es es := fun es =>
    List.forall₂_same.mpr fun e _ => ⟨rfl, agree_refl hrefl _ e.2⟩
  exact List.rel_append (hself before) (.cons ⟨rfl, h⟩ (hself after))

end Level

/-! ## §2 Mappings whose entries agree -/

section
variable {Same : ParameterDecls → ParameterDecls → Prop} {e e' : Value × Value}

theorem Level.AgreeEntry.eq_of_leaf {level : Level} (h : level.AgreeEntry Same e e')
    (hleaf : level.below e.1 = .leaf) : e = e' := by
  obtain ⟨hkey, hvalue⟩ := h
  rw [hleaf] at hvalue
  exact Prod.ext hkey hvalue

/-- One entry of a resource that agrees with another does the same to resources that agree. -/
theorem readMember_agrees {path : List String} {r r' : Resource} (hr : r.Agrees Same r')
    (he : Level.resource.AgreeEntry Same e e') :
    EndAlike (Resource.Agrees Same) (readMember path r e) (readMember path r' e') := by
  obtain ⟨k, v⟩ := e
  obtain ⟨k', v'⟩ := e'
  obtain ⟨hk, hv⟩ := he
  obtain rfl : k = k' := hk
  rw [readMember, readMember, readKey]
  cases hkey : k.text? with
  | none => exact .error _ _
  | some key =>
    rw [Level.below_eq hkey, Level.belowText] at hv
    simp only [bind, Except.bind]
    cases hkind : Member.ofKey key with
    | displayName =>
      rw [hkind] at hv
      obtain rfl : v = v' := hv
      cases readScalar path key v with
      | error fault => exact .error _ _
      | ok s => exact .ok ⟨by rw [hr.same], hr.methods, hr.children⟩
    | description =>
      rw [hkind] at hv
      obtain rfl : v = v' := hv
      cases readScalar path key v with
      | error fault => exact .error _ _
      | ok s => exact .ok ⟨by rw [hr.same], hr.methods, hr.children⟩
    | uriParameters =>
      rw [hkind] at hv
      have hdecls : EndAlike Eq (readParameters true v) (readParameters true v') := hv
      dsimp only
      generalize readParameters true v = x, readParameters true v' = x' at hdecls
      cases hdecls with
      | error => exact .error _ _
      | ok heq => exact .ok ⟨by rw [hr.same, heq], hr.methods, hr.children⟩
    | child =>
      rw [hkind] at hv
      exact EndAlike.bind (hv (path ++ [key]) key) fun _ _ hchild => .ok (hr.addChildAt key hchild)
    | method verb =>
      rw [hkind] at hv
      have hm : EndAlike (Method.Agrees Same) (readMethod verb v) (readMethod verb v') := hv verb
      dsimp only
      generalize readMethod verb v = x, readMethod verb v' = x' at hm
      cases hm with
      | error => exact .error _ _
      | ok hm => exact .ok (hr.addMethod hm)
    | unknown => exact .ok hr

/-- One entry at the top that agrees with another does the same to APIs that agree. -/
theorem readTopEntry_agrees {a a' : Api} (ha : a.Agrees Same a') (he : Level.api.AgreeEntry Same e e') :
    EndAlike (Api.Agrees Same) (readTopEntry a e) (readTopEntry a' e') := by
  obtain ⟨k, v⟩ := e
  obtain ⟨k', v'⟩ := e'
  obtain ⟨hk, hv⟩ := he
  obtain rfl : k = k' := hk
  rw [readTopEntry, readTopEntry, readKey]
  cases hkey : k.text? with
  | none => exact .error _ _
  | some key =>
    rw [Level.below_eq hkey, Level.belowText] at hv
    simp only [bind, Except.bind]
    cases hresource : isResourceKey key with
    | false => exact .ok ha
    | true =>
      rw [hresource] at hv
      exact EndAlike.bind (hv [key] key) fun _ _ hr => .ok (ha.addResourceAt key hr)

/-- The fields of methods that have been given are the same but for query parameters. -/
structure MethodFields.Agree (Same : ParameterDecls → ParameterDecls → Prop) (f f' : MethodFields) : Prop where
  same : f' = { f with queryParameters := f'.queryParameters }
  queryParameters : Option.Rel Same f.queryParameters f'.queryParameters

/-- One entry of a method that agrees with another does the same to fields that agree. -/
theorem readMethodEntry_agree {f f' : MethodFields} (hf : f.Agree Same f')
    (he : Level.method.AgreeEntry Same e e') :
    EndAlike (MethodFields.Agree Same) (readMethodEntry f e) (readMethodEntry f' e') := by
  obtain ⟨k, v⟩ := e
  obtain ⟨k', v'⟩ := e'
  obtain ⟨hk, hv⟩ := he
  obtain rfl : k = k' := hk
  obtain ⟨name, description, parameters⟩ := f
  obtain ⟨name', description', parameters'⟩ := f'
  obtain ⟨hsame, hparameters⟩ := hf
  cases hsame
  rw [readMethodEntry, readMethodEntry]
  cases hkey : readText .fieldName k with
  | error cause => exact .error _ _
  | ok key =>
    rw [Level.below_eq (readText_eq_ok.mp hkey), Level.belowText] at hv
    have hgiven : parameters'.isSome = parameters.isSome := by cases hparameters <;> rfl
    simp only [bind, Except.bind, pure, Except.pure, throw, throwThe, MonadExceptOf.throw, hgiven]
    by_cases hquery : key = "queryParameters"
    case pos =>
      subst hquery
      have hdecls : EndAlike Same (readParameters false v) (readParameters false v') := hv
      generalize readParameters false v = x, readParameters false v' = x' at hdecls
      simp only [String.reduceEq, if_false, if_true]
      split_ifs
      · exact .error _ _
      · cases hdecls with
        | error => exact .error _ _
        | ok h => exact .ok ⟨rfl, .some h⟩
    case neg =>
      rw [if_neg hquery] at hv
      obtain rfl : v = v' := hv
      split_ifs
      · exact .error _ _
      · cases readOptionalText v with
        | error cause => exact .error _ _
        | ok s => exact .ok ⟨rfl, hparameters⟩
      · exact .error _ _
      · cases readOptionalText v with
        | error cause => exact .error _ _
        | ok s => exact .ok ⟨rfl, hparameters⟩
      · exact .ok ⟨rfl, hparameters⟩

/-- One entry of parameters does the same as another of that name whose value declares the same. -/
theorem readParameterEntry_alike {required : Bool} {decls decls' : ParameterDecls} (hdecls : decls = decls')
    (hk : e.1 = e'.1) (hv : ∀ name, e.1.text? = some name →
      EndAlike Eq (readParameter required e.2) (readParameter required e'.2)) :
    EndAlike Eq (readParameterEntry required decls e) (readParameterEntry required decls' e') := by
  subst hdecls
  rw [readParameterEntry, readParameterEntry, ← hk]
  cases hname : readText .text e.1 with
  | error cause => exact .error _ _
  | ok name =>
    refine EndAlike.bind (S := Eq) (x := readParameter required e.2) (hv name (readText_eq_ok.mp hname)) ?_
    rintro decl _ rfl
    exact .ok rfl

/-- A field at the top is the same where entries agree, since none is a resource. -/
theorem lookup_eq_of_agree {es es' : List (Value × Value)}
    (h : List.Forall₂ (Level.api.AgreeEntry Same) es es') {field : String}
    (hfield : isResourceKey field = false) : Value.lookup field es = Value.lookup field es' := by
  induction h with
  | nil => rfl
  | @cons e e' rest rest' first _ ih =>
    obtain ⟨k, v⟩ := e
    obtain ⟨k', v'⟩ := e'
    obtain rfl : k = k' := first.1
    cases k with
    | text key =>
      rw [Value.lookup, Value.lookup, ih]
      by_cases hkey : key = field
      · subst hkey
        have hleaf : Level.api.below (.text key) = .leaf := by
          rw [Level.below_eq rfl, Level.belowText, hfield]
          rfl
        obtain rfl : v = v' := (Prod.ext_iff.mp (first.eq_of_leaf hleaf)).2
        rfl
      · rw [if_neg hkey, if_neg hkey]
    | _ => exact ih

end

namespace Level

section
variable {Same : ParameterDecls → ParameterDecls → Prop} (hrefl : ∀ decls, Same decls decls)
include hrefl

theorem agree_mapping_api {es es' : List (Value × Value)} (h : List.Forall₂ (api.AgreeEntry Same) es es') :
    EndAlike (Api.Agrees Same) (readApi (.mapping es)) (readApi (.mapping es')) := by
  have hfield : ∀ field, isResourceKey field = false → readField field es = readField field es' :=
    fun field hnot => by rw [readField, readField, lookup_eq_of_agree h hnot]
  rw [readApi, readApi, hfield "title" (by decide), hfield "version" (by decide), hfield "baseUri" (by decide)]
  refine EndAlike.bind (.refl (fun _ => rfl) _) ?_
  rintro title? _ rfl
  cases title? with
  | none => exact .error _ _
  | some title =>
    refine EndAlike.bind (.refl (fun _ => rfl) _) ?_
    rintro version _ rfl
    refine EndAlike.bind (.refl (fun _ => rfl) _) ?_
    rintro baseUri _ rfl
    rw [readTop_eq, readTop_eq]
    exact EndAlike.foldlM h (.refl hrefl _) fun _ _ _ _ => readTopEntry_agrees

theorem agree_mapping_method {es es' : List (Value × Value)}
    (h : List.Forall₂ (method.AgreeEntry Same) es es') (verb : Verb) :
    EndAlike (Method.Agrees Same) (readMethod verb (.mapping es)) (readMethod verb (.mapping es')) := by
  have hentries : EndAlike (MethodFields.Agree Same) (es.foldlM readMethodEntry {})
      (es'.foldlM readMethodEntry {}) :=
    EndAlike.foldlM h ⟨rfl, .none⟩ fun _ _ _ _ => readMethodEntry_agree
  rw [readMethod_mapping, readMethod_mapping]
  refine hentries.map fun f f' hf => ?_
  obtain ⟨name, description, parameters⟩ := f
  obtain ⟨name', description', parameters'⟩ := f'
  obtain ⟨hsame, hparameters⟩ := hf
  cases hsame
  refine ⟨rfl, ?_⟩
  cases hparameters with
  | none => exact hrefl []
  | some h => exact h

omit hrefl in
theorem agree_mapping_parameters {required : Bool} {es es' : List (Value × Value)}
    (h : List.Forall₂ (fun e e' => e.1 = e'.1 ∧ ∀ name, e.1.text? = some name →
      EndAlike Eq (readParameter required e.2) (readParameter required e'.2)) es es') :
    EndAlike Eq (readParameters required (.mapping es)) (readParameters required (.mapping es')) := by
  show EndAlike Eq (readParameterEntries required [] es) (readParameterEntries required [] es')
  rw [readParameterEntries_eq, readParameterEntries_eq]
  exact EndAlike.foldlM h rfl fun _ _ _ _ hdecls he => readParameterEntry_alike hdecls he.1 he.2

/-- **Mappings agree if their entries do**, one by one. -/
theorem agree_mapping {level : Level} {es es' : List (Value × Value)}
    (h : List.Forall₂ (level.AgreeEntry Same) es es') : level.Agree Same (.mapping es) (.mapping es') := by
  have heq : (∀ k, level.below k = leaf) → es = es' := fun hleaf => by
    rw [← List.forall₂_eq_eq_eq]
    exact h.imp fun e _ he => he.eq_of_leaf (hleaf e.1)
  cases level with
  | api => exact agree_mapping_api hrefl h
  | resource =>
    intro path segment
    rw [readResource, readResource, readMembers_eq, readMembers_eq]
    exact EndAlike.foldlM h (.refl hrefl _) fun _ _ _ _ => readMember_agrees
  | uriParameters =>
    refine agree_mapping_parameters (h.imp fun e e' he => ⟨he.1, fun name hname => ?_⟩)
    have hv := he.2
    rwa [below_eq hname] at hv
  | method => exact agree_mapping_method hrefl h
  | queryParameters =>
    have hread : EndAlike Eq (readParameters false (.mapping es)) (readParameters false (.mapping es')) := by
      refine agree_mapping_parameters (h.imp fun e e' he => ⟨he.1, fun name hname => ?_⟩)
      have hv := he.2
      rwa [below_eq hname] at hv
    refine hread.mono ?_
    rintro decls _ rfl
    exact hrefl decls
  | parameter required =>
    rw [heq fun k => by cases hk : k.text? <;> simp [below, belowText, hk]]
    exact agree_refl hrefl _ _
  | leaf =>
    rw [heq fun k => by cases hk : k.text? <;> simp [below, belowText, hk]]
    exact agree_refl hrefl _ _

omit hrefl in
/-- Values that agree still do behind a tag. -/
theorem agree_tagged {level : Level} {tag : String} {v v' : Value} (h : level.Agree Same v v') :
    level.Agree Same (.tagged tag v) (.tagged tag v') := by
  cases level with
  | api => exact .error _ _
  | resource => exact fun _ _ => .error _ _
  | uriParameters => exact h
  | method => exact h
  | queryParameters => exact h
  | parameter required => exact .error _ _
  | leaf => exact congrArg (Value.tagged tag) h

end

/-! ## §3 Mappings that can be read -/

/-- A value behind a tag that can be read could be read without it. -/
theorem readable_of_tagged {level : Level} {tag : String} {v : Value} (h : level.Readable (.tagged tag v)) :
    level.Readable v := by
  cases level with
  | api =>
    obtain ⟨a, ha⟩ := h
    cases ha
  | resource =>
    obtain ⟨path, segment, r, hr⟩ := h
    cases hr
  | uriParameters => exact h
  | method => exact h
  | queryParameters => exact h
  | parameter required =>
    obtain ⟨decl, hdecl⟩ := h
    cases hdecl
  | leaf => trivial

theorem readable_parameter_of_mem {required : Bool} {es : List (Value × Value)}
    (h : ∃ decls, readParameters required (.mapping es) = .ok decls) {e : Value × Value} (he : e ∈ es) :
    ∃ decl, readParameter required e.2 = .ok decl := by
  obtain ⟨-, decl, -, hdecl⟩ := readParameterEntries_isOk_iff.mp h e he
  exact ⟨decl, hdecl⟩

/-- **Where a mapping can be read, each of its values can**, as what its key demands. -/
theorem readable_of_mem {level : Level} {es : List (Value × Value)} (h : level.Readable (.mapping es))
    {e : Value × Value} (he : e ∈ es) : (level.below e.1).Readable e.2 := by
  rw [below]
  cases hkey : e.1.text? with
  | none => trivial
  | some key =>
    show (level.belowText key).Readable e.2
    cases level with
    | api =>
      obtain ⟨a, ha⟩ := h
      obtain ⟨title, version, baseUri, -, -, -, htop⟩ := readApi_mapping_eq_ok.mp ha
      rw [readTop_eq] at htop
      obtain ⟨a₁, a₂, hstep⟩ := exists_step_of_foldlM_ok htop he
      obtain ⟨key', hkey', hread⟩ := readTopEntry_isOk_iff.mp ⟨a₂, hstep⟩
      obtain rfl : key = key' := Option.some.inj (hkey.symm.trans hkey')
      rw [belowText]
      split
      case isTrue hresource => exact ⟨[key], key, hread hresource⟩
      case isFalse => trivial
    | resource =>
      obtain ⟨path, segment, r, hr⟩ := h
      rw [readResource, readMembers_eq] at hr
      obtain ⟨r₁, r₂, hstep⟩ := exists_step_of_foldlM_ok hr he
      obtain ⟨key', hkey', hread⟩ := readMember_isOk_iff.mp ⟨r₂, hstep⟩
      obtain rfl : key = key' := Option.some.inj (hkey.symm.trans hkey')
      rw [belowText]
      rcases Member.ofKey_cases key with ⟨hkind, -⟩ | ⟨hkind, -⟩ | ⟨hkind, hfield⟩ | ⟨hkind, hfield⟩ |
        ⟨verb, hkind, hfield⟩ | ⟨hkind, -⟩ <;> rw [hkind]
      · trivial
      · trivial
      · exact hread.uriParameters hfield
      · exact ⟨_, _, hread.child hfield⟩
      · exact ⟨verb, hread.method verb hfield⟩
      · trivial
    | uriParameters => exact readable_parameter_of_mem h he
    | method =>
      obtain ⟨verb, m, hm⟩ := h
      obtain ⟨fields, hfields, -⟩ := readMethod_mapping_eq_ok.mp hm
      obtain ⟨f₁, f₂, hstep⟩ := exists_step_of_foldlM_ok hfields he
      obtain ⟨given, hgiven, -⟩ := readMethodEntry_eq_ok.mp hstep
      rw [belowText]
      split
      case isTrue hquery =>
        subst hquery
        rw [MethodEntry.read?_of_text hkey] at hgiven
        obtain ⟨decls, hdecls, -⟩ := Option.map_eq_some_iff.mp hgiven
        exact ⟨decls, toOption_eq_some.mp hdecls⟩
      case isFalse => trivial
    | queryParameters => exact readable_parameter_of_mem h he
    | parameter required => trivial
    | leaf => trivial

end Level

/-! ## §4 Changes at one place -/

/-- The second value is the first with a change at one place, at any depth. `Change` relates the value that stands
there to the one that takes its place, by the level at which it is read. -/
inductive Within (Change : Level → Value → Value → Prop) : Level → Value → Value → Prop
  | here {level : Level} {v v' : Value} (h : Change level v v') : Within Change level v v'
  | inside {level : Level} {k v v' : Value} (h : Within Change (level.below k) v v')
    (before after : List (Value × Value)) :
    Within Change level (.mapping (before ++ (k, v) :: after)) (.mapping (before ++ (k, v') :: after))
  | tagged {level : Level} {v v' : Value} (h : Within Change level v v') (tag : String) :
    Within Change level (.tagged tag v) (.tagged tag v')

section
variable {Change : Level → Value → Value → Prop} {level : Level} {v v' : Value}

/-- **Where the same is read after a change at its place, the same is read of the whole.** -/
theorem Within.agree {Same : ParameterDecls → ParameterDecls → Prop} (hrefl : ∀ decls, Same decls decls)
    (h : Within Change level v v') (hchange : ∀ level v v', Change level v v' → level.Agree Same v v') :
    level.Agree Same v v' := by
  induction h with
  | here h => exact hchange _ _ _ h
  | inside _ before after ih => exact Level.agree_mapping hrefl (Level.agreeEntry_replace hrefl ih before after)
  | tagged _ _ ih => exact Level.agree_tagged ih

/-- **Where nothing can be read after a change at its place, nothing can be read of the whole.** -/
theorem Within.not_readable (h : Within Change level v v')
    (hchange : ∀ level v v', Change level v v' → ¬ level.Readable v') : ¬ level.Readable v' := by
  induction h with
  | here h => exact hchange _ _ _ h
  | inside _ before after ih =>
    exact fun hread => ih (Level.readable_of_mem hread (List.mem_append_right before List.mem_cons_self))
  | tagged _ _ ih => exact fun hread => ih (Level.readable_of_tagged hread)

end

end RouteStubs.Raml
