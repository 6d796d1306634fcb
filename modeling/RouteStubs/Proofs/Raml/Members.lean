import Mathlib.Data.String.Basic
import RouteStubs.Proofs.Resources
import RouteStubs.Raml.Document
/-!
API descriptions, one entry at a time.

Reading a mapping is a run over its entries (`readMembers_eq`, `readTop_eq`). One step of the run is
`readMember` or `readTopEntry`; what a step can do is in `ReadsMember` and `readTopEntry_cases`, and
when it does not fail in `readMember_isOk_iff` and `readTopEntry_isOk_iff`. What an entry does to one field of a
resource, which it may leave alone, is in `ReadsMember.displayName_eq` and its neighbours. The induction over a
value that follows the nesting of mappings is `Value.mapping_induction`.
-/

namespace RouteStubs

open Yaml (Value)

/-! ## §1 Nested mappings -/

/-- Induction over the nesting of mappings: a property of all values in a mapping passes on to it. -/
theorem Yaml.Value.mapping_induction {motive : Value → Prop}
    (mapping : ∀ entries, (∀ e ∈ entries, motive e.2) → motive (.mapping entries))
    (other : ∀ v, (∀ entries, v ≠ .mapping entries) → motive v) (v : Value) : motive v :=
  match v with
  | .mapping entries => mapping entries fun e _ => mapping_induction mapping other e.2
  | .null => other _ nofun
  | .bool _ => other _ nofun
  | .number _ => other _ nofun
  | .text _ => other _ nofun
  | .sequence _ => other _ nofun
  | .tagged _ _ => other _ nofun
termination_by sizeOf v
decreasing_by
  next hmem =>
  have hlt : sizeOf e < sizeOf entries := List.sizeOf_lt_of_mem hmem
  obtain ⟨k, v⟩ := e
  simp only [Prod.mk.sizeOf_spec, Value.mapping.sizeOf_spec] at hlt ⊢
  omega

/-! ## §2 Kinds of keys -/

theorem Verb.ofKey?_key (verb : Verb) : Verb.ofKey? verb.key = some verb := by
  cases verb <;> decide

/-- A verb has no key but its own. -/
theorem Verb.ofKey?_eq_some {key : String} {verb : Verb} :
    Verb.ofKey? key = some verb ↔ key = verb.key := by
  constructor
  · intro h
    have hkey := List.find?_some h
    exact (beq_iff_eq.mp hkey).symm
  · rintro rfl
    exact ofKey?_key verb

theorem Verb.key_injective {v w : Verb} (h : v.key = w.key) : v = w := by
  have hv := ofKey?_key v
  rw [h, ofKey?_key] at hv
  exact (Option.some.inj hv).symm

namespace Raml

/-- A key that is passed over: it names no field, no resource and no method. -/
structure IsUnknown (key : String) : Prop where
  ne_displayName : key ≠ "displayName"
  ne_description : key ≠ "description"
  ne_uriParameters : key ≠ "uriParameters"
  not_resource : isResourceKey key = false
  not_verb : ∀ verb : Verb, key ≠ verb.key

/-- The key of a verb names no field and no resource. -/
theorem verb_key_ne (verb : Verb) :
    verb.key ≠ "displayName" ∧ verb.key ≠ "description" ∧ verb.key ≠ "uriParameters" ∧
      isResourceKey verb.key = false := by
  cases verb <;> decide

/-- A key that starts with a slash names no field and no method. -/
theorem ne_of_isResourceKey {key field : String} (h : isResourceKey key = true)
    (hfield : isResourceKey field = false) : key ≠ field := by
  rintro rfl
  rw [h] at hfield
  cases hfield

/-- Every key is of one of six kinds, and what it declares is that kind. -/
theorem Member.ofKey_cases (key : String) :
    Member.ofKey key = .displayName ∧ key = "displayName" ∨
    Member.ofKey key = .description ∧ key = "description" ∨
    Member.ofKey key = .uriParameters ∧ key = "uriParameters" ∨
    Member.ofKey key = .child ∧ isResourceKey key = true ∨
    (∃ verb, Member.ofKey key = .method verb ∧ key = verb.key) ∨
    Member.ofKey key = .unknown ∧ IsUnknown key := by
  rw [Member.ofKey]
  split_ifs with hname hdescription hparameters hchild
  · exact .inl ⟨rfl, hname⟩
  · exact .inr (.inl ⟨rfl, hdescription⟩)
  · exact .inr (.inr (.inl ⟨rfl, hparameters⟩))
  · exact .inr (.inr (.inr (.inl ⟨rfl, hchild⟩)))
  · cases hverb : Verb.ofKey? key with
    | some verb =>
      exact .inr (.inr (.inr (.inr (.inl ⟨verb, rfl, Verb.ofKey?_eq_some.mp hverb⟩))))
    | none =>
      refine .inr (.inr (.inr (.inr (.inr ⟨rfl, hname, hdescription, hparameters, ?_, ?_⟩))))
      · simpa using hchild
      · rintro verb rfl
        rw [Verb.ofKey?_key] at hverb
        cases hverb

theorem Member.ofKey_of_isResourceKey {key : String} (h : isResourceKey key = true) :
    Member.ofKey key = .child := by
  rw [Member.ofKey, if_neg (ne_of_isResourceKey h (by decide)), if_neg (ne_of_isResourceKey h (by decide)),
    if_neg (ne_of_isResourceKey h (by decide)), if_pos h]

theorem Member.ofKey_key (verb : Verb) : Member.ofKey verb.key = .method verb := by
  cases verb <;> decide

/-! ## §3 Runs that can fail -/

section
variable {ε α β σ : Type}

theorem bind_eq_ok {x : Except ε α} {f : α → Except ε β} {b : β} :
    x >>= f = .ok b ↔ ∃ a, x = .ok a ∧ f a = .ok b := by
  cases x <;> simp [bind, Except.bind]

variable {step : σ → α → Except ε σ}

/-- Where it does not depend on the state whether a step fails, a run fails exactly if some step does. -/
theorem foldlM_isOk_iff {P : α → Prop} (h : ∀ s a, (∃ s', step s a = .ok s') ↔ P a) (s : σ)
    (as : List α) : (∃ s', as.foldlM step s = .ok s') ↔ ∀ a ∈ as, P a := by
  induction as generalizing s with
  | nil => simp [List.foldlM_nil, pure, Except.pure]
  | cons a as ih =>
    rw [List.foldlM_cons, List.forall_mem_cons]
    constructor
    · rintro ⟨s', hrun⟩
      obtain ⟨s₁, hstep, hrest⟩ := bind_eq_ok.mp hrun
      exact ⟨(h s a).mp ⟨s₁, hstep⟩, (ih s₁).mp ⟨s', hrest⟩⟩
    · rintro ⟨ha, has⟩
      obtain ⟨s₁, hstep⟩ := (h s a).mpr ha
      obtain ⟨s', hrest⟩ := (ih s₁).mpr has
      exact ⟨s', bind_eq_ok.mpr ⟨s₁, hstep, hrest⟩⟩

/-- A run that did not fail fails once one of its steps is replaced by one that does. -/
theorem foldlM_eq_error {before after : List α} {a a' : α} {s s' : σ} {e : ε}
    (hrun : (before ++ a :: after).foldlM step s = .ok s') (hfail : ∀ s, step s a' = .error e) :
    (before ++ a' :: after).foldlM step s = .error e := by
  rw [List.foldlM_append] at hrun ⊢
  obtain ⟨s₁, hbefore, -⟩ := bind_eq_ok.mp hrun
  rw [hbefore]
  simp only [bind, Except.bind]
  rw [List.foldlM_cons, hfail]
  rfl

/-- What holds at the start of a run, and of what has been read so far after each step, holds of all at
the end. -/
theorem foldlM_invariant {motive : List α → σ → Prop} {as : List α}
    (hstep : ∀ before a s s', a ∈ as → motive before s → step s a = .ok s' → motive (before ++ [a]) s')
    {s s' : σ} (hstart : motive [] s) (hrun : as.foldlM step s = .ok s') : motive as s' := by
  have hfrom : ∀ (rest before : List α) (s : σ), (∀ a ∈ rest, a ∈ as) → motive before s →
      rest.foldlM step s = .ok s' → motive (before ++ rest) s' := by
    intro rest
    induction rest with
    | nil =>
      intro before s _ h hrun
      rw [List.foldlM_nil] at hrun
      cases hrun
      rwa [List.append_nil]
    | cons a rest ih =>
      intro before s hmem h hrun
      rw [List.foldlM_cons] at hrun
      obtain ⟨s₁, hfirst, hrest⟩ := bind_eq_ok.mp hrun
      obtain ⟨ha, hmem⟩ := List.forall_mem_cons.mp hmem
      rw [List.append_cons]
      exact ih _ s₁ hmem (hstep before a s s₁ ha h hfirst) hrest
  simpa using hfrom as [] s (fun _ ha => ha) hstart hrun

end

/-! ## §4 One entry -/

/-- The text of a field, if the value is one that a field may have. -/
def scalarText? : Value → Option String
  | .text s => some s
  | .number n => some (String.ofList n.text)
  | .bool b => some (toString b)
  | _ => none

theorem readScalar_eq_ok {path : List String} {field : String} {v : Value} {s : String} :
    readScalar path field v = .ok s ↔ scalarText? v = some s := by
  cases v <;> simp [readScalar, scalarText?]

theorem readKey_eq_ok {path : List String} {k : Value} {key : String} :
    readKey path k = .ok key ↔ k.text? = some key := by
  rw [readKey]
  cases k.text? <;> simp

/-- What is read as a method is a method for the verb. -/
theorem readMethod_verb {verb : Verb} {v : Value} {m : Method} (h : readMethod verb v = .ok m) :
    m.verb = verb := by
  rw [readMethod] at h
  split at h
  · cases h
    rfl
  · cases hfields : readMethodEntries {} _ with
    | error cause =>
      rw [hfields] at h
      cases h
    | ok fields =>
      rw [hfields] at h
      cases h
      rfl
  · cases h

/-- Reads one entry of a resource, into what has been read of it. -/
def readMember (path : List String) (r : Resource) (e : Value × Value) : Except Fault Resource := do
  let key ← readKey path e.1
  match Member.ofKey key with
  | .displayName =>
    let s ← readScalar path key e.2
    return { r with displayName := some s }
  | .description =>
    let s ← readScalar path key e.2
    return { r with description := some s }
  | .uriParameters =>
    match readParameters true e.2 with
    | .error cause => throw ⟨.uriParametersWrong (resourcePath path) cause, path ++ [key]⟩
    | .ok decls => return { r with uriParameters := decls }
  | .child =>
    let child ← readResource (path ++ [key]) key e.2
    return r.addChildAt key child
  | .method verb =>
    match readMethod verb e.2 with
    | .error cause => throw ⟨.methodWrong verb (resourcePath path) cause, path ++ [key]⟩
    | .ok m => return r.addMethod m
  | .unknown => return r

/-- What reading one entry with this key and value does to a resource, if it does not fail. -/
inductive ReadsMember (path : List String) (r : Resource) (v : Value) : String → Resource → Prop
  | displayName {s : String} (hs : scalarText? v = some s) :
    ReadsMember path r v "displayName" { r with displayName := some s }
  | description {s : String} (hs : scalarText? v = some s) :
    ReadsMember path r v "description" { r with description := some s }
  | uriParameters {decls : ParameterDecls} (hdecls : readParameters true v = .ok decls) :
    ReadsMember path r v "uriParameters" { r with uriParameters := decls }
  | child {key : String} {child : Resource} (hkey : isResourceKey key = true)
    (hchild : readResource (path ++ [key]) key v = .ok child) : ReadsMember path r v key (r.addChildAt key child)
  | method {verb : Verb} {m : Method} (hm : readMethod verb v = .ok m) :
    ReadsMember path r v verb.key (r.addMethod m)
  | unknown {key : String} (hkey : IsUnknown key) : ReadsMember path r v key r

theorem readsMember_of_readMember {path : List String} {r r' : Resource} {e : Value × Value}
    (h : readMember path r e = .ok r') : ∃ key, e.1.text? = some key ∧ ReadsMember path r e.2 key r' := by
  obtain ⟨key, hkey, h⟩ := bind_eq_ok.mp h
  refine ⟨key, readKey_eq_ok.mp hkey, ?_⟩
  rcases Member.ofKey_cases key with ⟨hkind, rfl⟩ | ⟨hkind, rfl⟩ | ⟨hkind, rfl⟩ | ⟨hkind, hresource⟩ |
    ⟨verb, hkind, rfl⟩ | ⟨hkind, hunknown⟩ <;> rw [hkind] at h
  · obtain ⟨s, hs, h⟩ := bind_eq_ok.mp h
    cases h
    exact .displayName (readScalar_eq_ok.mp hs)
  · obtain ⟨s, hs, h⟩ := bind_eq_ok.mp h
    cases h
    exact .description (readScalar_eq_ok.mp hs)
  · cases hdecls : readParameters true e.2 with
    | error cause =>
      rw [hdecls] at h
      cases h
    | ok decls =>
      rw [hdecls] at h
      cases h
      exact .uriParameters hdecls
  · obtain ⟨child, hchild, h⟩ := bind_eq_ok.mp h
    cases h
    exact .child hresource hchild
  · dsimp only at h
    cases hm : readMethod verb e.2 with
    | error cause =>
      rw [hm] at h
      cases h
    | ok m =>
      rw [hm] at h
      cases h
      exact .method hm
  · cases h
    exact .unknown hunknown

namespace ReadsMember

variable {path : List String} {r r' : Resource} {v : Value} {key : String}

theorem segment_eq (h : ReadsMember path r v key r') : r'.segment = r.segment := by
  cases h <;> rfl

/-- Only an entry of that name gives a display name. -/
theorem displayName_eq (h : ReadsMember path r v key r') :
    r'.displayName = if key = "displayName" then scalarText? v else r.displayName := by
  cases h with
  | displayName hs => exact hs.symm
  | child hkey _ => exact (if_neg (ne_of_isResourceKey hkey (by decide))).symm
  | method _ => exact (if_neg (verb_key_ne _).1).symm
  | unknown hkey => exact (if_neg hkey.ne_displayName).symm
  | _ => rfl

/-- Only an entry of that name gives a description. -/
theorem description_eq (h : ReadsMember path r v key r') :
    r'.description = if key = "description" then scalarText? v else r.description := by
  cases h with
  | description hs => exact hs.symm
  | child hkey _ => exact (if_neg (ne_of_isResourceKey hkey (by decide))).symm
  | method _ => exact (if_neg (verb_key_ne _).2.1).symm
  | unknown hkey => exact (if_neg hkey.ne_description).symm
  | _ => rfl

/-- Only an entry of that name gives URI parameters. -/
theorem uriParameters_eq (h : ReadsMember path r v key r') :
    if key = "uriParameters" then readParameters true v = .ok r'.uriParameters
      else r'.uriParameters = r.uriParameters := by
  cases h with
  | displayName _ => exact (if_neg (by decide)).mpr rfl
  | description _ => exact (if_neg (by decide)).mpr rfl
  | uriParameters hdecls => exact (if_pos rfl).mpr hdecls
  | child hkey _ => exact (if_neg (ne_of_isResourceKey hkey (by decide))).mpr rfl
  | method _ => exact (if_neg (verb_key_ne _).2.2.1).mpr rfl
  | unknown hkey => exact (if_neg hkey.ne_uriParameters).mpr rfl

/-- Only an entry whose key is that of a verb declares a method, under the verb. -/
theorem methods_eq (h : ReadsMember path r v key r') :
    (∃ verb m, key = verb.key ∧ readMethod verb v = .ok m ∧
      r'.methods = Entries.insertSorted verb m r.methods) ∨
    (∀ verb : Verb, key ≠ verb.key) ∧ r'.methods = r.methods := by
  cases h with
  | displayName _ => exact .inr ⟨fun verb => (verb_key_ne verb).1.symm, rfl⟩
  | description _ => exact .inr ⟨fun verb => (verb_key_ne verb).2.1.symm, rfl⟩
  | uriParameters _ => exact .inr ⟨fun verb => (verb_key_ne verb).2.2.1.symm, rfl⟩
  | child hkey _ => exact .inr ⟨fun verb => ne_of_isResourceKey hkey (verb_key_ne verb).2.2.2, rfl⟩
  | @method verb m hm =>
    refine .inl ⟨verb, m, rfl, hm, ?_⟩
    rw [Resource.addMethod, readMethod_verb hm]
  | unknown hkey => exact .inr ⟨hkey.not_verb, rfl⟩

/-- Only an entry whose key starts with a slash puts a resource below, under that key. -/
theorem children_eq (h : ReadsMember path r v key r') :
    (isResourceKey key = true ∧ ∃ child, readResource (path ++ [key]) key v = .ok child ∧
      r'.children = Entries.insertSorted key child r.children) ∨
    isResourceKey key = false ∧ r'.children = r.children := by
  cases h with
  | child hkey hchild => exact .inl ⟨hkey, _, hchild, rfl⟩
  | method _ => exact .inr ⟨(verb_key_ne _).2.2.2, rfl⟩
  | unknown hkey => exact .inr ⟨hkey.not_resource, rfl⟩
  | _ => exact .inr ⟨by decide, rfl⟩

end ReadsMember

/-- The value of an entry is what its key demands, so that the entry can be read. -/
structure Readable (path : List String) (e : Value × Value) (key : String) : Prop where
  displayName : key = "displayName" → ∃ s, scalarText? e.2 = some s
  description : key = "description" → ∃ s, scalarText? e.2 = some s
  uriParameters : key = "uriParameters" → ∃ decls, readParameters true e.2 = .ok decls
  child : isResourceKey key = true → ∃ child, readResource (path ++ [key]) key e.2 = .ok child
  method : ∀ verb : Verb, key = verb.key → ∃ m, readMethod verb e.2 = .ok m

/-- **Reading one entry does not fail exactly if** its key is a text and its value is what that demands. -/
theorem readMember_isOk_iff {path : List String} {r : Resource} {e : Value × Value} :
    (∃ r', readMember path r e = .ok r') ↔ ∃ key, e.1.text? = some key ∧ Readable path e key := by
  constructor
  · rintro ⟨r', h⟩
    obtain ⟨key, hkey, hread⟩ := readsMember_of_readMember h
    refine ⟨key, hkey, ?_⟩
    cases hread with
    | displayName hs =>
      exact ⟨fun _ => ⟨_, hs⟩, nofun, nofun, nofun, fun w hw => absurd hw.symm (verb_key_ne w).1⟩
    | description hs =>
      exact ⟨nofun, fun _ => ⟨_, hs⟩, nofun, nofun, fun w hw => absurd hw.symm (verb_key_ne w).2.1⟩
    | uriParameters hdecls =>
      exact ⟨nofun, nofun, fun _ => ⟨_, hdecls⟩, nofun, fun w hw => absurd hw.symm (verb_key_ne w).2.2.1⟩
    | child hresource hchild =>
      have hne : ∀ {field : String}, isResourceKey field = false → key ≠ field := ne_of_isResourceKey hresource
      exact ⟨fun h => absurd h (hne (by decide)), fun h => absurd h (hne (by decide)),
        fun h => absurd h (hne (by decide)), fun _ => ⟨_, hchild⟩,
        fun w hw => absurd hw (hne (verb_key_ne w).2.2.2)⟩
    | @method verb m hm =>
      obtain ⟨hname, hdescription, hparameters, hnot⟩ := verb_key_ne verb
      refine ⟨fun h => absurd h hname, fun h => absurd h hdescription, fun h => absurd h hparameters,
        fun h => absurd (hnot.symm.trans h) Bool.false_ne_true, fun w hw => ?_⟩
      obtain rfl := Verb.key_injective hw
      exact ⟨m, hm⟩
    | unknown hunknown =>
      exact ⟨fun h => absurd h hunknown.ne_displayName, fun h => absurd h hunknown.ne_description,
        fun h => absurd h hunknown.ne_uriParameters,
        fun h => absurd (hunknown.not_resource.symm.trans h) Bool.false_ne_true,
        fun w hw => absurd hw (hunknown.not_verb w)⟩
  · rintro ⟨key, hkey, hreadable⟩
    rw [readMember, readKey_eq_ok.mpr hkey]
    rcases Member.ofKey_cases key with ⟨hkind, hfield⟩ | ⟨hkind, hfield⟩ | ⟨hkind, hfield⟩ |
      ⟨hkind, hfield⟩ | ⟨verb, hkind, hfield⟩ | ⟨hkind, -⟩ <;>
      simp only [bind, Except.bind, hkind]
    · obtain ⟨s, hs⟩ := hreadable.displayName hfield
      rw [readScalar_eq_ok.mpr hs]
      exact ⟨_, rfl⟩
    · obtain ⟨s, hs⟩ := hreadable.description hfield
      rw [readScalar_eq_ok.mpr hs]
      exact ⟨_, rfl⟩
    · obtain ⟨decls, hdecls⟩ := hreadable.uriParameters hfield
      rw [hdecls]
      exact ⟨_, rfl⟩
    · obtain ⟨child, hread⟩ := hreadable.child hfield
      rw [hread]
      exact ⟨_, rfl⟩
    · obtain ⟨m, hm⟩ := hreadable.method verb hfield
      rw [hm]
      exact ⟨_, rfl⟩
    · exact ⟨_, rfl⟩

/-- **A resource is read one entry after the other.** -/
theorem readMembers_eq (path : List String) (r : Resource) (entries : List (Value × Value)) :
    readMembers path r entries = entries.foldlM (readMember path) r := by
  induction entries generalizing r with
  | nil => rfl
  | cons e rest ih =>
    obtain ⟨k, v⟩ := e
    rw [List.foldlM_cons, readMembers, readMember]
    cases readKey path k with
    | error fault => rfl
    | ok key =>
      simp only [bind, Except.bind, pure, Except.pure]
      cases Member.ofKey key with
      | displayName => cases readScalar path key v with
        | error fault => rfl
        | ok s => exact ih _
      | description => cases readScalar path key v with
        | error fault => rfl
        | ok s => exact ih _
      | uriParameters => cases readParameters true v with
        | error cause => rfl
        | ok decls => exact ih _
      | child => cases readResource (path ++ [key]) key v with
        | error fault => rfl
        | ok child => exact ih _
      | method verb =>
        dsimp only
        cases readMethod verb v with
        | error cause => rfl
        | ok m => exact ih _
      | unknown => exact ih _

/-- A field is looked up as it would be without an entry under another key. -/
theorem lookup_insert_of_ne {field key : String} (h : key ≠ field) (x : Value)
    (before after : List (Value × Value)) :
    Value.lookup field (before ++ (.text key, x) :: after) = Value.lookup field (before ++ after) := by
  induction before with
  | nil => rw [List.nil_append, List.nil_append, Value.lookup, if_neg h]
  | cons e rest ih =>
    obtain ⟨k, v⟩ := e
    cases k with
    | text name => rw [List.cons_append, List.cons_append, Value.lookup, Value.lookup, ih]
    | _ => exact ih

/-- Reads one entry at the top, into what has been read of the API. -/
def readTopEntry (api : Api) (e : Value × Value) : Except Fault Api := do
  let key ← readKey [] e.1
  if isResourceKey key then
    let r ← readResource [key] key e.2
    return api.addResourceAt key r
  else return api

/-- **The resources at the top are read one entry after the other.** -/
theorem readTop_eq (api : Api) (entries : List (Value × Value)) :
    readTop api entries = entries.foldlM readTopEntry api := by
  induction entries generalizing api with
  | nil => rfl
  | cons e rest ih =>
    obtain ⟨k, v⟩ := e
    rw [List.foldlM_cons, readTop, readTopEntry]
    cases readKey [] k with
    | error fault => rfl
    | ok key =>
      simp only [bind, Except.bind, pure, Except.pure]
      split
      · cases readResource [key] key v with
        | error fault => rfl
        | ok r => exact ih _
      · exact ih _

/-- What reading one entry at the top did, if it did not fail. -/
theorem readTopEntry_cases {api api' : Api} {e : Value × Value} (h : readTopEntry api e = .ok api') :
    ∃ key, e.1.text? = some key ∧
      ((isResourceKey key = true ∧ ∃ r, readResource [key] key e.2 = .ok r ∧
        api' = api.addResourceAt key r) ∨
      isResourceKey key = false ∧ api' = api) := by
  obtain ⟨key, hkey, h⟩ := bind_eq_ok.mp h
  refine ⟨key, readKey_eq_ok.mp hkey, ?_⟩
  split at h
  case isTrue hresource =>
    obtain ⟨r, hr, h⟩ := bind_eq_ok.mp h
    exact .inl ⟨hresource, r, hr, (Except.ok.inj h).symm⟩
  case isFalse hnot => exact .inr ⟨by simpa using hnot, (Except.ok.inj h).symm⟩

/-- **Reading one entry at the top does not fail exactly if** its key is a text, and its value is a resource
if the key starts with a slash. -/
theorem readTopEntry_isOk_iff {api : Api} {e : Value × Value} :
    (∃ api', readTopEntry api e = .ok api') ↔ ∃ key, e.1.text? = some key ∧
      (isResourceKey key = true → ∃ r, readResource [key] key e.2 = .ok r) := by
  constructor
  · rintro ⟨api', h⟩
    obtain ⟨key, hkey, ⟨-, r, hr, -⟩ | ⟨hnot, -⟩⟩ := readTopEntry_cases h
    · exact ⟨key, hkey, fun _ => ⟨r, hr⟩⟩
    · exact ⟨key, hkey, fun h => absurd (hnot.symm.trans h) Bool.false_ne_true⟩
  · rintro ⟨key, hkey, hresource⟩
    rw [readTopEntry, readKey_eq_ok.mpr hkey]
    simp only [bind, Except.bind]
    split
    case isTrue h =>
      obtain ⟨r, hr⟩ := hresource h
      rw [hr]
      exact ⟨_, rfl⟩
    case isFalse => exact ⟨_, rfl⟩

end Raml

end RouteStubs
