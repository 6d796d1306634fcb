import RouteStubs.Proofs.Raml.Grammar
import RouteStubs.Proofs.Raml.Location
import RouteStubs.Proofs.Walk.Declarations
/-!
The first entry that is wrong.

`scan` lists the entries of the root and of the resources in the order of the document, each with the keys of the
resources that it stands in. `Item.offence?` says what is wrong with one entry, by itself.

* `readApi_eq_error_iff` — where the fields at the top are valid, a value is refused exactly if some entry is wrong,
  for the fault of the first of them.
* `find?_of_resourceAt`, `Walk.ofResources_visits` — the keys of a resource lead to it in the API as well, and a
  walk goes to it under the path that joins them.
* `readApi_first_fault` — both together, and the error on a text: the fault depends on nothing behind the entry, and
  the path that it names is the one that the endpoints have.

The place in the error is another matter. It is where the way to the fault is found in the text, and if it is not
found where it was written, it may be found behind the entry (`span_behindFault`).
-/

namespace RouteStubs

open Yaml (Value)

namespace Raml

/-! ## §1 Entries in the order of the document -/

/-- An entry, with the keys of the resources that it stands in. At the top there are none. -/
structure Item where
  path : List String
  key : Value
  value : Value

mutual

/-- The entries in the value of a resource and in all resources below it. -/
def scan (path : List String) : Value → List Item
  | .mapping entries => scanEntries path entries
  | _ => []
termination_by structural v => v

/-- Entries that stand side by side, each before those below it. -/
def scanEntries (path : List String) : List (Value × Value) → List Item
  | [] => []
  | (k, v) :: rest =>
    let below := match k.text? with
      | some key => if isResourceKey key then scan (path ++ [key]) v else []
      | none => []
    ⟨path, k, v⟩ :: below ++ scanEntries path rest
termination_by structural es => es

end

/-- The error of a result that is one. -/
def errorOf {ε α : Type} : Except ε α → Option ε
  | .error cause => some cause
  | .ok _ => none

/-- The value may stand for a resource. -/
def mayBeResource : Value → Bool
  | .null => true
  | .mapping _ => true
  | _ => false

namespace Item

/-- The keys of the resource that the entry is about: the one it declares, or else the one it stands in. -/
def resource (e : Item) : List String :=
  match e.key.text? with
  | some key => if isResourceKey key then e.path ++ [key] else e.path
  | none => e.path

/-- What is wrong with a field of a resource. -/
def fieldOffence? (path : List String) (key : String) (v : Value) : Option Fault :=
  if key = "displayName" ∨ key = "description" then
    if (scalarText? v).isSome then none else some ⟨.fieldNotScalar key, path ++ [key]⟩
  else if key = "uriParameters" then
    (errorOf (readParameters true v)).map fun cause => ⟨.uriParametersWrong (String.join path) cause, path ++ [key]⟩
  else
    (Verb.ofKey? key).bind fun verb =>
      (errorOf (readMethod verb v)).map fun cause => ⟨.methodWrong verb (String.join path) cause, path ++ [key]⟩

/-- What is wrong with an entry: its key is no text, it declares a resource with a value that is none, or it is a
field of a resource and wrong. -/
def offence? (e : Item) : Option Fault :=
  match e.key.text? with
  | none => some ⟨.keyNotText e.key, e.path⟩
  | some key =>
    if isResourceKey key then
      if mayBeResource e.value then none
      else some ⟨.resourceNotMapping (String.join (e.path ++ [key])), e.path ++ [key]⟩
    else if e.path = [] then none
    else fieldOffence? e.path key e.value

end Item

/-- The name of a resource that a problem gives. -/
def Problem.resource? : Problem → Option String
  | .resourceNotMapping path => some path
  | .methodWrong _ path _ => some path
  | .uriParametersWrong path _ => some path
  | _ => none

/-- The value is a mapping with a title, and its fields at the top may be read. -/
inductive ValidScalars : Value → Prop
  | mapping {entries : List (Value × Value)}
    (title : ∃ v, Value.lookup "title" entries = some v ∧ IsScalar v)
    (version : ∀ v, Value.lookup "version" entries = some v → IsScalar v)
    (baseUri : ∀ v, Value.lookup "baseUri" entries = some v → IsScalar v) : ValidScalars (.mapping entries)

/-- A title is enough. -/
theorem ValidScalars.of_title {entries : List (Value × Value)} {v : Value}
    (htitle : Value.lookup "title" entries = some v) (hv : IsScalar v)
    (hversion : Value.lookup "version" entries = none) (hbaseUri : Value.lookup "baseUri" entries = none) :
    ValidScalars (.mapping entries) :=
  .mapping ⟨v, htitle, hv⟩ (by simp [hversion]) (by simp [hbaseUri])

/-! ## §2 The fault of the first entry that is wrong -/

section
variable {ε α β σ : Type}

theorem errorOf_eq_some {x : Except ε α} {cause : ε} : errorOf x = some cause ↔ x = .error cause := by
  cases x <;> simp [errorOf]

theorem errorOf_bind (x : Except ε α) (f : α → Except ε β) {fault? : Option ε}
    (h : ∀ a, errorOf (f a) = fault?) : errorOf (x >>= f) = (errorOf x).or fault? := by
  cases x with
  | error cause => rfl
  | ok a => exact h a

theorem errorOf_foldlM {step : σ → α → Except ε σ} {fault? : α → Option ε} {as : List α}
    (h : ∀ a ∈ as, ∀ s, errorOf (step s a) = fault? a) (s : σ) :
    errorOf (as.foldlM step s) = as.findSome? fault? := by
  induction as generalizing s with
  | nil => rfl
  | cons a as ih =>
    obtain ⟨ha, has⟩ := List.forall_mem_cons.mp h
    rw [List.foldlM_cons, errorOf_bind _ _ (ih has), ha, List.findSome?_cons]
    cases fault? a <;> rfl

end

section
variable {path : List String}

theorem resourcePath_eq (hpath : ∀ key ∈ path, isResourceKey key = true) :
    resourcePath path = String.join path := by
  rw [resourcePath, List.filter_eq_self.mpr hpath]

theorem forall_isResourceKey_concat (hpath : ∀ key ∈ path, isResourceKey key = true) {key : String}
    (hkey : isResourceKey key = true) : ∀ k ∈ path ++ [key], isResourceKey k = true := by
  intro k hk
  rcases List.mem_append.mp hk with hk | hk
  · exact hpath k hk
  · exact List.mem_singleton.mp hk ▸ hkey

/-- The first fault in an entry and below it. -/
def entryFault? (path : List String) (e : Value × Value) : Option Fault :=
  (scanEntries path [e]).findSome? Item.offence?

/-- The first fault in a value that should be a resource. -/
def resourceFault? (path : List String) (v : Value) : Option Fault :=
  if mayBeResource v then (scan path v).findSome? Item.offence?
  else some ⟨.resourceNotMapping (String.join path), path⟩

theorem findSome?_scanEntries (es : List (Value × Value)) :
    (scanEntries path es).findSome? Item.offence? = es.findSome? (entryFault? path) := by
  induction es with
  | nil => rfl
  | cons e es ih =>
    obtain ⟨k, v⟩ := e
    have hsplit : scanEntries path ((k, v) :: es) = scanEntries path [(k, v)] ++ scanEntries path es := by
      rw [scanEntries, scanEntries, scanEntries, List.append_nil]
    rw [hsplit, List.findSome?_append, ih, List.findSome?_cons, ← entryFault?]
    cases entryFault? path (k, v) <;> rfl

theorem entryFault?_of_not_text {k : Value} (h : k.text? = none) (v : Value) :
    entryFault? path (k, v) = some ⟨.keyNotText k, path⟩ := by
  simp [entryFault?, scanEntries, h, Item.offence?]

theorem entryFault?_of_resource {k : Value} {key : String} (h : k.text? = some key)
    (hkey : isResourceKey key = true) (v : Value) :
    entryFault? path (k, v) = resourceFault? (path ++ [key]) v := by
  cases v <;> simp [entryFault?, resourceFault?, scanEntries, scan, h, hkey, Item.offence?, mayBeResource]

theorem entryFault?_of_field {k : Value} {key : String} (h : k.text? = some key)
    (hkey : isResourceKey key = false) (v : Value) :
    entryFault? path (k, v) = if path = [] then none else Item.fieldOffence? path key v := by
  simp [entryFault?, scanEntries, h, hkey, Item.offence?]

/-- A field with the key of a verb is a method. -/
theorem Item.fieldOffence?_key (verb : Verb) (v : Value) : fieldOffence? path verb.key v =
    (errorOf (readMethod verb v)).map fun cause =>
      ⟨.methodWrong verb (String.join path) cause, path ++ [verb.key]⟩ := by
  obtain ⟨hname, hdescription, hparameters, -⟩ := verb_key_ne verb
  rw [fieldOffence?, if_neg (not_or.mpr ⟨hname, hdescription⟩), if_neg hparameters, Verb.ofKey?_key,
    Option.bind_some]

theorem errorOf_readScalar (field : String) (v : Value) :
    errorOf (readScalar path field v) =
      if (scalarText? v).isSome then none else some ⟨.fieldNotScalar field, path ++ [field]⟩ := by
  cases v <;> rfl

theorem errorOf_readMember (hpath : ∀ key ∈ path, isResourceKey key = true) (hne : path ≠ []) (r : Resource)
    {e : Value × Value} (hbelow : ∀ key, e.1.text? = some key → isResourceKey key = true →
      errorOf (readResource (path ++ [key]) key e.2) = resourceFault? (path ++ [key]) e.2) :
    errorOf (readMember path r e) = entryFault? path e := by
  obtain ⟨k, v⟩ := e
  rw [readMember, readKey]
  cases hk : k.text? with
  | none => exact (entryFault?_of_not_text hk v).symm
  | some key =>
    simp only [bind, Except.bind]
    cases hkey : isResourceKey key with
    | true =>
      rw [Member.ofKey_of_isResourceKey hkey, entryFault?_of_resource hk hkey, ← hbelow key hk hkey]
      cases readResource (path ++ [key]) key v <;> rfl
    | false =>
      rw [entryFault?_of_field hk hkey, if_neg hne, Item.fieldOffence?]
      rcases Member.ofKey_cases key with ⟨hkind, rfl⟩ | ⟨hkind, rfl⟩ | ⟨hkind, rfl⟩ | ⟨-, hresource⟩ |
        ⟨verb, hkind, rfl⟩ | ⟨hkind, hunknown⟩
      · rw [hkind, if_pos (.inl rfl), ← errorOf_readScalar]
        cases readScalar path "displayName" v <;> rfl
      · rw [hkind, if_pos (.inr rfl), ← errorOf_readScalar]
        cases readScalar path "description" v <;> rfl
      · rw [hkind, if_neg (by decide), if_pos rfl, resourcePath_eq hpath]
        cases readParameters true v <;> rfl
      · exact absurd (hkey.symm.trans hresource) Bool.false_ne_true
      · rw [hkind, ← Item.fieldOffence?, Item.fieldOffence?_key, resourcePath_eq hpath]
        dsimp only
        cases readMethod verb v <;> rfl
      · have hverb : Verb.ofKey? key = none := by
          refine Option.eq_none_iff_forall_ne_some.mpr fun verb h => ?_
          exact hunknown.not_verb verb (Verb.ofKey?_eq_some.mp h)
        rw [hkind, if_neg (not_or.mpr ⟨hunknown.ne_displayName, hunknown.ne_description⟩),
          if_neg hunknown.ne_uriParameters, hverb]
        rfl

/-- **The error of a resource is the fault of its first entry that is wrong**, or that it is no resource. -/
theorem errorOf_readResource (hpath : ∀ key ∈ path, isResourceKey key = true) (hne : path ≠ []) (segment : String)
    (v : Value) : errorOf (readResource path segment v) = resourceFault? path v := by
  induction v using Value.mapping_induction generalizing path segment with
  | mapping entries ih =>
    rw [readResource, readMembers_eq]
    have hentries : errorOf (entries.foldlM (readMember path) (.empty segment)) =
        entries.findSome? (entryFault? path) := by
      refine errorOf_foldlM (fun e he r => ?_) _
      refine errorOf_readMember hpath hne r fun key _ hkey => ?_
      exact ih e he (forall_isResourceKey_concat hpath hkey) (by simp) key
    rw [hentries, ← findSome?_scanEntries]
    rfl
  | other v hv =>
    cases v with
    | null => rfl
    | mapping entries => exact absurd rfl (hv entries)
    | _ =>
      rw [readResource, resourcePath_eq hpath]
      · rfl
      all_goals simp

theorem errorOf_readTopEntry (api : Api) (e : Value × Value) :
    errorOf (readTopEntry api e) = entryFault? [] e := by
  obtain ⟨k, v⟩ := e
  rw [readTopEntry, readKey]
  cases hk : k.text? with
  | none => exact (entryFault?_of_not_text hk v).symm
  | some key =>
    simp only [bind, Except.bind]
    cases hkey : isResourceKey key with
    | true =>
      have hpath : ∀ k ∈ [key], isResourceKey k = true := by simpa using hkey
      rw [entryFault?_of_resource hk hkey, List.nil_append, ← errorOf_readResource hpath (by simp) key]
      cases readResource [key] key v <;> rfl
    | false =>
      rw [entryFault?_of_field hk hkey, if_pos rfl]
      rfl

theorem errorOf_readApi {root : Value} (h : ValidScalars root) :
    errorOf (readApi root) = (scan [] root).findSome? Item.offence? := by
  obtain @⟨entries, ⟨v, hv, hscalar⟩, hversion, hbaseUri⟩ := h
  obtain ⟨title, htitleRead⟩ := readField_of_lookup hv hscalar
  have hversionRead := readField_eq_ok.mpr ⟨hversion, rfl⟩
  have hbaseUriRead := readField_eq_ok.mpr ⟨hbaseUri, rfl⟩
  rw [readApi, htitleRead, hversionRead, hbaseUriRead]
  simp only [bind, Except.bind]
  rw [readTop_eq, errorOf_foldlM fun e _ api => errorOf_readTopEntry api e, ← findSome?_scanEntries]
  rfl

/-- The entry is the first one that is wrong, and this is its fault. -/
def FirstWrong (root : Value) (e : Item) (fault : Fault) : Prop :=
  ∃ before after, scan [] root = before ++ e :: after ∧
    (∀ e' ∈ before, e'.offence? = none) ∧ e.offence? = some fault

/-- **A value is refused for the first of its entries that is wrong**, if its fields at the top are valid. -/
theorem readApi_eq_error_iff {root : Value} (h : ValidScalars root) {fault : Fault} :
    readApi root = .error fault ↔ ∃ e, FirstWrong root e fault := by
  simp only [FirstWrong]
  rw [← errorOf_eq_some, errorOf_readApi h, List.findSome?_eq_some_iff]
  tauto

/-! ## §3 Where an entry stands, and what its fault names -/

theorem mem_scanEntries {es : List (Value × Value)} {e : Item} (he : e ∈ scanEntries path es) :
    ∃ e' ∈ es, e = ⟨path, e'.1, e'.2⟩ ∨
      ∃ key, isResourceKey key = true ∧ e ∈ scan (path ++ [key]) e'.2 := by
  induction es with
  | nil => cases he
  | cons e' rest ih =>
    obtain ⟨k, v⟩ := e'
    rw [scanEntries, List.cons_append] at he
    rcases List.mem_cons.mp he with rfl | he
    · exact ⟨(k, v), List.mem_cons_self .., .inl rfl⟩
    rcases List.mem_append.mp he with hbelow | hrest
    · refine ⟨(k, v), List.mem_cons_self .., .inr ?_⟩
      split at hbelow
      · split at hbelow
        case isTrue hkey => exact ⟨_, hkey, hbelow⟩
        case isFalse => cases hbelow
      · cases hbelow
    · obtain ⟨e'', hmem, h⟩ := ih hrest
      exact ⟨e'', List.mem_cons_of_mem _ hmem, h⟩

/-- An entry stands in resources only. -/
theorem isResourceKey_of_mem_scan {v : Value} (hpath : ∀ key ∈ path, isResourceKey key = true) {e : Item}
    (he : e ∈ scan path v) : ∀ key ∈ e.path, isResourceKey key = true := by
  induction v using Value.mapping_induction generalizing path with
  | mapping entries ih =>
    obtain ⟨e', hmem, rfl | ⟨key, hkey, hbelow⟩⟩ := mem_scanEntries he
    · exact hpath
    · exact ih e' hmem (forall_isResourceKey_concat hpath hkey) hbelow
  | other v hv =>
    cases v with
    | mapping entries => exact absurd rfl (hv entries)
    | _ => cases he

theorem Item.isResourceKey_resource {e : Item} (h : ∀ key ∈ e.path, isResourceKey key = true) :
    ∀ key ∈ e.resource, isResourceKey key = true := by
  rw [resource]
  split
  · split
    case isTrue hkey => exact forall_isResourceKey_concat h hkey
    case isFalse => exact h
  · exact h

/-- **The path that a fault names joins the keys of the resource that the entry is about.** -/
theorem Item.resource_of_offence? {e : Item} {fault : Fault} (h : e.offence? = some fault) {name : String}
    (hname : fault.problem.resource? = some name) : e.resource ≠ [] ∧ name = String.join e.resource := by
  rw [offence?] at h
  rw [resource]
  cases hk : e.key.text? with
  | none =>
    rw [hk] at h
    cases h
    cases hname
  | some key =>
    simp only [hk, fieldOffence?] at h ⊢
    split_ifs at h ⊢ with hkey hshape hpath hboth hscalar hparameters
    · cases h
      cases hname
      exact ⟨by simp, rfl⟩
    · cases h
      cases hname
    · obtain ⟨cause, -, rfl⟩ := Option.map_eq_some_iff.mp h
      cases hname
      exact ⟨hpath, rfl⟩
    · obtain ⟨verb, -, hverb⟩ := Option.bind_eq_some_iff.mp h
      obtain ⟨cause, -, rfl⟩ := Option.map_eq_some_iff.mp hverb
      cases hname
      exact ⟨hpath, rfl⟩

end

/-! ## §4 Resources and the walk to them -/

/-- The value of the resource that keys lead to, where the last entry under a key counts. -/
def resourceAt : List String → Value → Option Value
  | [], v => some v
  | key :: keys, .mapping entries => (lastResource entries key).bind (resourceAt keys)
  | _ :: _, _ => none

theorem find?_of_stores {entries : List (Value × Value)} {rs : Resources}
    (h : Stores Spells (lastResource entries) rs) {keys : List String} (hne : keys ≠ []) {v : Value}
    (hv : resourceAt keys (.mapping entries) = some v) :
    ∃ segment r, Api.find? rs keys = some r ∧ Spells segment v r := by
  induction keys generalizing entries rs with
  | nil => exact absurd rfl hne
  | cons key keys ih =>
    obtain ⟨w, hw, hrest⟩ := Option.bind_eq_some_iff.mp hv
    obtain ⟨r, hr⟩ := (h.stored key).mpr ⟨w, hw⟩
    have hspells : Spells key w r := h.each key r w hr hw
    have hlookup : rs.lookup key = some r := Entries.lookup_of_mem String.lt_irrefl h.keys hr
    cases keys with
    | nil =>
      obtain rfl := Option.some.inj hrest
      exact ⟨key, r, hlookup, hspells⟩
    | cons k ks =>
      cases hspells with
      | null => cases hrest
      | mapping _ _ _ _ _ hkeys hstored heach =>
        obtain ⟨segment, r', hr', hspells'⟩ := ih ⟨hkeys, hstored, heach⟩ (by simp) hrest
        exact ⟨segment, r', by rw [Api.find?, hlookup, Option.bind_some, hr']; simp, hspells'⟩

/-- **Keys that lead to a resource in a description lead to it in the API.** -/
theorem find?_of_resourceAt {root : Value} {api : Api} (hapi : readApi root = .ok api) {keys : List String}
    (hne : keys ≠ []) {v : Value} (hv : resourceAt keys root = some v) :
    ∃ segment r, Api.find? api.resources keys = some r ∧ Spells segment v r := by
  obtain ⟨-, -, -, hstores⟩ := spellsApi_of_readApi hapi
  exact find?_of_stores hstores hne hv

end Raml

namespace Walk

theorem ofResources_of_mem {key : String} {r : Resource} {rs : Resources} (h : (key, r) ∈ rs) (path : String)
    (inherited : List Parameter) :
    ∃ first last : Walk, ofResources path inherited rs =
      first.andThen ((ofResource (path ++ key) inherited r).andThen last) := by
  induction rs with
  | nil => cases h
  | cons e rest ih =>
    obtain ⟨k, r'⟩ := e
    rw [ofResources]
    rcases List.mem_cons.mp h with heq | hrest
    · obtain ⟨rfl, rfl⟩ := Prod.mk.inj heq
      exact ⟨nothing, _, (nothing_andThen _).symm⟩
    · obtain ⟨first, last, hsplit⟩ := ih hrest
      exact ⟨(ofResource (path ++ k) inherited r').andThen first, last, by rw [hsplit, ← andThen_assoc]⟩

/-- **A walk goes to a resource under the path that joins its keys.** -/
theorem ofResources_visits {rs : Resources} {keys : List String} {r : Resource}
    (h : Api.find? rs keys = some r) (path : String) (inherited : List Parameter) :
    ∃ (first : Walk) (parameters : List Parameter) (last : Walk), ofResources path inherited rs =
      first.andThen ((ofMethods (path ++ String.join keys) parameters r.methods).andThen last) := by
  induction keys generalizing rs path inherited with
  | nil => simp at h
  | cons key keys ih =>
    cases keys with
    | nil =>
      obtain ⟨first, last, hsplit⟩ := ofResources_of_mem (Entries.mem_of_lookup h) path inherited
      have hjoin : String.join [key] = key := by simp
      rw [hsplit, ofResource_eq, andThen_assoc, hjoin]
      exact ⟨first, _, _, rfl⟩
    | cons k ks =>
      have hlookup : (rs.lookup key).bind (fun parent => Api.find? parent.children (k :: ks)) = some r := h
      obtain ⟨parent, hparent, hr⟩ := Option.bind_eq_some_iff.mp hlookup
      obtain ⟨first, last, hsplit⟩ := ofResources_of_mem (Entries.mem_of_lookup hparent) path inherited
      obtain ⟨first', parameters, last', hsplit'⟩ :=
        ih hr (path ++ key) (inherited ++ Parameter.ofDecls parent.uriParameters)
      have hjoin : path ++ String.join (key :: k :: ks) = path ++ key ++ String.join (k :: ks) := by
        simp [String.append_assoc]
      rw [hsplit, ofResource_eq, hsplit', hjoin]
      refine ⟨(first.andThen (ofMethods (path ++ key) (inherited ++ Parameter.ofDecls parent.uriParameters)
        parent.methods)).andThen first', parameters, last'.andThen last, ?_⟩
      simp only [andThen_assoc]

theorem mem_endpoints_andThen {first second : Walk} {e : Endpoint} (he : e ∈ (first.andThen second).endpoints) :
    e ∈ first.endpoints ∨ e ∈ second.endpoints := by
  rw [andThen] at he
  split at he
  · exact .inl he
  · exact List.mem_append.mp he

/-- The endpoints of methods have the path under which they are walked. -/
theorem path_of_mem_ofMethods {path : String} {parameters : List Parameter} {methods : List (Verb × Method)}
    {e : Endpoint} (he : e ∈ (ofMethods path parameters methods).endpoints) : e.path = path := by
  induction methods with
  | nil => cases he
  | cons m rest ih =>
    obtain ⟨verb, m⟩ := m
    rcases mem_endpoints_andThen he with hfirst | hrest
    · rw [ofMethod] at hfirst
      split at hfirst
      · cases hfirst
      · rw [List.mem_singleton.mp hfirst]
    · exact ih hrest

end Walk

namespace Raml

/-! ## §5 The fault of a description, and the error on a text -/

/-- A text with the header and with this value. -/
structure Holds (text : String) (root : Value) : Prop where
  header : hasHeader text.toList = true
  value : Value.ofText text.toList = .ok root

theorem Holds.parse_eq {text : String} {root : Value} (h : Holds text root) {fault : Fault}
    (hfault : readApi root = .error fault) :
    parse text = .error (.invalid fault.problem (locate text.toList fault.path)) :=
  parse_eq_error h.header h.value hfault

/-- What is found in a common start of two texts is found at the same place in both. -/
theorem locate_eq_of_start {front text text' : List Char} {path : List String} (htext : front <+: text)
    (htext' : front <+: text') (hfound : (locate front path).isSome) : locate text' path = locate text path := by
  obtain ⟨span, hspan⟩ := Option.isSome_iff_exists.mp hfound
  obtain ⟨rest, rfl⟩ := htext
  obtain ⟨rest', rfl⟩ := htext'
  rw [locate, locateFrom_append hspan, locate, locateFrom_append hspan]

/-- Two texts with one fault have the same error if it is found at the same place in them. -/
theorem Holds.parse_eq_parse_iff {text text' : String} {root root' : Value} (h : Holds text root)
    (h' : Holds text' root') {fault : Fault} (hfault : readApi root = .error fault)
    (hfault' : readApi root' = .error fault) :
    parse text' = parse text ↔ locate text'.toList fault.path = locate text.toList fault.path := by
  rw [h.parse_eq hfault, h'.parse_eq hfault']
  simp

/-- In every description in which the keys lead to a value, they lead to the resource that it spells, and the methods
of that resource are walked under the name, which is the path of their endpoints. -/
def WalkedAs (keys : List String) (name : String) : Prop :=
  ∀ root api v, readApi root = .ok api → resourceAt keys root = some v →
    ∃ segment r, Api.find? api.resources keys = some r ∧ Spells segment v r ∧
      ∃ (first : Walk) (parameters : List Parameter) (last : Walk),
        Walk.ofApi api = first.andThen ((Walk.ofMethods name parameters r.methods).andThen last) ∧
        ∀ endpoint ∈ (Walk.ofMethods name parameters r.methods).endpoints, endpoint.path = name

/-- **The path that a fault names is the one that endpoints have**: it joins the keys of the resources that the
entry stands in, and where these lead to a resource, that is the path of its endpoints. -/
theorem FirstWrong.path_named {root : Value} {e : Item} {fault : Fault} (h : FirstWrong root e fault) {name : String}
    (hname : fault.problem.resource? = some name) :
    name = String.join e.resource ∧ (∀ key ∈ e.resource, isResourceKey key = true) ∧ WalkedAs e.resource name := by
  obtain ⟨before, after, hscan, -, he⟩ := h
  have hpath : ∀ key ∈ e.path, isResourceKey key = true :=
    isResourceKey_of_mem_scan (v := root) (List.forall_mem_nil _) (by rw [hscan]; simp)
  obtain ⟨hne, hjoin⟩ := Item.resource_of_offence? he hname
  refine ⟨hjoin, Item.isResourceKey_resource hpath, fun root' api v hapi hv => ?_⟩
  obtain ⟨segment, r, hr, hspells⟩ := find?_of_resourceAt hapi hne hv
  obtain ⟨first, parameters, last, hwalk⟩ := Walk.ofResources_visits hr "" []
  rw [String.empty_append, ← hjoin] at hwalk
  exact ⟨segment, r, hr, hspells, first, parameters, last, hwalk, fun _ => Walk.path_of_mem_ofMethods⟩

/-- **The first entry that is wrong decides the fault, and nothing behind it has a part in that.** The error on a
text adds the place where the way to the fault is found, which is looked for in the whole text. So two texts with the
same first entry that is wrong have the same problem in their errors, and the same error exactly if they have the
same place; this is so if the way is found in a start that both have. The path that the problem names is the one that
endpoints of the resource have, in every description in which its keys lead to one. -/
theorem readApi_first_fault {root : Value} (h : ValidScalars root) :
    (∀ fault, readApi root = .error fault ↔ ∃ e, FirstWrong root e fault) ∧
      ∀ e fault, FirstWrong root e fault →
        (∀ text, Holds text root →
          parse text = .error (.invalid fault.problem (locate text.toList fault.path))) ∧
        (∀ root', ValidScalars root' → FirstWrong root' e fault →
          readApi root' = readApi root ∧
            ∀ text text', Holds text root → Holds text' root' →
              (parse text' = parse text ↔ locate text'.toList fault.path = locate text.toList fault.path) ∧
              ∀ front, front <+: text.toList → front <+: text'.toList → (locate front fault.path).isSome →
                parse text' = parse text) ∧
        ∀ name, fault.problem.resource? = some name →
          name = String.join e.resource ∧ (∀ key ∈ e.resource, isResourceKey key = true) ∧
            WalkedAs e.resource name := by
  refine ⟨fun _ => readApi_eq_error_iff h, fun e fault hfirst => ?_⟩
  have hfault : readApi root = .error fault := (readApi_eq_error_iff h).mpr ⟨e, hfirst⟩
  refine ⟨fun text htext => htext.parse_eq hfault, fun root' h' hfirst' => ?_, fun name => hfirst.path_named⟩
  have hfault' : readApi root' = .error fault := (readApi_eq_error_iff h').mpr ⟨e, hfirst'⟩
  refine ⟨hfault'.trans hfault.symm, fun text text' htext htext' => ?_⟩
  have hsame := htext.parse_eq_parse_iff htext' hfault hfault'
  exact ⟨hsame, fun front hfront hfront' hfound => hsame.mpr (locate_eq_of_start hfront hfront' hfound)⟩

/-- The value of a document with a value for a method of the resource `/a/b`, and entries behind that method, behind
its resource and at the end. -/
def belowA (method : Value) (inB inA atTop : List (Value × Value)) : Value :=
  .mapping ([(.text "title", .text "T"),
    (.text "/a", .mapping ((.text "/b", .mapping ((.text "get", method) :: inB)) :: inA))] ++ atTop)

/-- The fault of the method, for what is wrong with its value. -/
def faultBelowA (cause : BodyError) : Fault := ⟨.methodWrong .get "/a/b" cause, ["/a", "/b", "get"]⟩

/-- If the value for the method is no method, that is the first fault, whatever stands behind it. -/
theorem firstWrong_belowA {method : Value} {cause : BodyError} (h : readMethod .get method = .error cause)
    (inB inA atTop : List (Value × Value)) : FirstWrong (belowA method inB inA atTop)
      ⟨["/a", "/b"], .text "get", method⟩ (faultBelowA cause) := by
  refine ⟨[⟨[], .text "title", .text "T"⟩, ⟨[], .text "/a", _⟩, ⟨["/a"], .text "/b", _⟩], _, rfl, ?_, ?_⟩
  · simp only [List.forall_mem_cons]
    exact ⟨rfl, rfl, rfl, List.forall_mem_nil _⟩
  · have hfield : Item.fieldOffence? ["/a", "/b"] Verb.get.key method = _ := Item.fieldOffence?_key .get method
    rw [h] at hfield
    exact hfield

/-- A text with a method that is `true`. -/
def wrongMethod : String := "#%RAML 0.8\ntitle: T\n/a:\n /b:\n  get: true\n"

/-- The text with more that is wrong: a method of the same resource, and a resource beside it and one at the top. -/
def wrongMethods : String := wrongMethod ++ "  post: 7\n /c: 1\n/d: 5\n"

set_option maxRecDepth 20000 in
theorem holds_wrongMethod : Holds wrongMethod (belowA (.bool true) [] [] []) := ⟨by decide +kernel, rfl⟩

set_option maxRecDepth 20000 in
theorem holds_wrongMethods : Holds wrongMethods (belowA (.bool true) [(.text "post", .number (.integer 7))]
    [(.text "/c", .number (.integer 1))] [(.text "/d", .number (.integer 5))]) :=
  ⟨by decide +kernel, rfl⟩

/-- Of all that is wrong the first method is the error, with and without the rest. Its path is the one under which
the resource is walked in a description where the method is right. -/
theorem readApi_first_fault_belowA :
    ∃ e fault, FirstWrong (belowA (.bool true) [] [] []) e fault ∧
      readApi (belowA (.bool true) [] [] []) = .error fault ∧
      parse wrongMethod = .error (.invalid fault.problem (some ⟨31, 3⟩)) ∧ parse wrongMethods = parse wrongMethod ∧
      fault.problem.resource? = some "/a/b" ∧ "/a/b" = String.join e.resource ∧
      ∃ api r first parameters last, readApi (belowA (.mapping [(.text "displayName", .text "X")]) [] [] []) = .ok api ∧
        Walk.ofApi api = Walk.andThen first ((Walk.ofMethods "/a/b" parameters (Resource.methods r)).andThen last) ∧
        (Walk.ofApi api).endpoints.map (·.path) = ["/a/b"] := by
  have hvalid : ValidScalars (belowA (.bool true) [] [] []) :=
    .of_title rfl (.text "T") rfl rfl
  have hvalid' : ValidScalars (belowA (.bool true) [(.text "post", .number (.integer 7))]
      [(.text "/c", .number (.integer 1))] [(.text "/d", .number (.integer 5))]) :=
    .of_title rfl (.text "T") rfl rfl
  have hfirst := firstWrong_belowA (rfl : readMethod .get (.bool true) = .error _)
  have hlocate : locate wrongMethod.toList ["/a", "/b", "get"] = some ⟨31, 3⟩ := by decide +kernel
  have hfound : (locate wrongMethod.toList ["/a", "/b", "get"]).isSome := by rw [hlocate]; rfl
  have hstart : wrongMethod.toList <+: wrongMethods.toList := ⟨_, (String.toList_append ..).symm⟩
  obtain ⟨hfault, hfaults⟩ := readApi_first_fault hvalid
  obtain ⟨hparse, hsame, hpath⟩ := hfaults _ _ (hfirst [] [] [])
  obtain ⟨-, hparses⟩ := hsame _ hvalid' (hfirst ..)
  have hparse := hparse _ holds_wrongMethod
  rw [faultBelowA, hlocate] at hparse
  obtain ⟨hjoin, -, hwalks⟩ := hpath "/a/b" rfl
  obtain ⟨segment, r, -, -, first, parameters, last, hwalk, -⟩ :=
    hwalks (belowA (.mapping [(.text "displayName", .text "X")]) [] [] []) _ _ rfl rfl
  exact ⟨_, _, hfirst [] [] [], (hfault _).mpr ⟨_, hfirst [] [] []⟩, hparse,
    (hparses _ _ holds_wrongMethod holds_wrongMethods).2 _ (List.prefix_refl _) hstart hfound,
    rfl, hjoin, _, r, first, parameters, last, rfl, hwalk, rfl⟩

/-- A text whose method is 7, with the key in quotation marks. -/
def quotedMethod : String := "#%RAML 0.8\ntitle: T\n/a:\n /b:\n  \"get\": 7\n"

/-- The text with a method at the end, whose key is in no quotation marks. -/
def quotedMethods : String := quotedMethod ++ "/c:\n get:\n"

set_option maxRecDepth 20000 in
theorem holds_quotedMethod : Holds quotedMethod (belowA (.number (.integer 7)) [] [] []) := ⟨by decide +kernel, rfl⟩

set_option maxRecDepth 20000 in
theorem holds_quotedMethods :
    Holds quotedMethods (belowA (.number (.integer 7)) [] [] [(.text "/c", .mapping [(.text "get", .null)])]) :=
  ⟨by decide +kernel, rfl⟩

/-- The way to the first fault is not found where its key is in quotation marks, and then the key of a valid method
behind it becomes its place. -/
theorem span_behindFault :
    ∃ root root' e fault, Holds quotedMethod root ∧ Holds quotedMethods root' ∧
      ValidScalars root ∧ ValidScalars root' ∧ FirstWrong root e fault ∧ FirstWrong root' e fault ∧
      parse quotedMethod = .error (.invalid fault.problem none) ∧
      parse quotedMethods = .error (.invalid fault.problem (some ⟨45, 3⟩)) := by
  have hvalid : ValidScalars (belowA (.number (.integer 7)) [] [] []) :=
    .of_title rfl (.text "T") rfl rfl
  have hvalid' : ValidScalars
      (belowA (.number (.integer 7)) [] [] [(.text "/c", .mapping [(.text "get", .null)])]) :=
    .of_title rfl (.text "T") rfl rfl
  have hfirst := firstWrong_belowA (rfl : readMethod .get (.number (.integer 7)) = .error _)
  have hlocate : locate quotedMethod.toList ["/a", "/b", "get"] = none := by decide +kernel
  have hlocate' : locate quotedMethods.toList ["/a", "/b", "get"] = some ⟨45, 3⟩ := by decide +kernel
  have hparse := holds_quotedMethod.parse_eq ((readApi_eq_error_iff hvalid).mpr ⟨_, hfirst ..⟩)
  have hparse' := holds_quotedMethods.parse_eq ((readApi_eq_error_iff hvalid').mpr ⟨_, hfirst ..⟩)
  rw [faultBelowA, hlocate] at hparse
  rw [faultBelowA, hlocate'] at hparse'
  exact ⟨_, _, _, _, holds_quotedMethod, holds_quotedMethods, hvalid, hvalid', hfirst .., hfirst .., hparse, hparse'⟩

end Raml

end RouteStubs
