import RouteStubs.Proofs.Raml.Grammar
/-!
APIs written as values.

`Api.toValue` is the value that spells an API: each field under its name, each method under the key of its verb
and each resource under its segment. `readApi_toValue` says that it is read as the API it was made from, with
the parameters in the order in which they are declared.

Entries are read one after the other, and each is stored behind those before it: as a new name, or as a key that
is larger than the others (`foldlM_map_eq_ok`).
-/

namespace RouteStubs

open Yaml (Value)

/-! ## §1 Values -/

/-- A text, or nothing. -/
def textOrNull (s : Option String) : Value := s.elim .null .text

/-- The entry for a text, if there is one. -/
def textEntry (key : String) (s : Option String) : List (Value × Value) :=
  s.toList.map fun s => (.text key, .text s)

/-- The value that declares a parameter, with all of its fields. -/
def ParameterDecl.toValue (decl : ParameterDecl) : Value :=
  .mapping [(.text "displayName", textOrNull decl.displayName),
    (.text "description", textOrNull decl.description), (.text "type", .text decl.type),
    (.text "pattern", textOrNull decl.pattern), (.text "required", .bool decl.required)]

/-- The value that declares parameters. -/
def parametersToValue (decls : ParameterDecls) : Value :=
  .mapping (decls.map fun e => (.text e.1, e.2.toValue))

/-- The value that declares a method. -/
def Method.toValue (m : Method) : Value :=
  .mapping [(.text "displayName", .text m.displayName), (.text "description", .text m.description),
    (.text "queryParameters", parametersToValue m.queryParameters)]

/-- The entries of a resource for itself. -/
def Resource.ownEntries (r : Resource) : List (Value × Value) :=
  textEntry "displayName" r.displayName ++ textEntry "description" r.description ++
    (.text "uriParameters", parametersToValue r.uriParameters) ::
      r.methods.map fun e => (.text e.1.key, e.2.toValue)

/-- The entries of resources side by side. -/
def Resources.toEntries : Resources → List (Value × Value) :=
  Resources.fold (fun key r below beside => (.text key, .mapping (r.ownEntries ++ below)) :: beside) []

/-- The value that declares a resource and what is below it. -/
def Resource.toValue (r : Resource) : Value := .mapping (r.ownEntries ++ Resources.toEntries r.children)

/-- The value that describes an API. -/
def Api.toValue (api : Api) : Value :=
  .mapping ((.text "title", .text api.title) :: textEntry "version" api.version ++
    textEntry "baseUri" api.baseUri ++ Resources.toEntries api.resources)

theorem Resources.toEntries_eq (rs : Resources) :
    rs.toEntries = rs.map fun e => (.text e.1, e.2.toValue) := by
  induction rs with
  | nil => rfl
  | cons e rest ih =>
    obtain ⟨key, r⟩ := e
    rw [toEntries, Resources.fold_cons, ← toEntries, ih]
    rfl

/-- At every depth each resource is stored under its own segment, which starts with a slash, and each method
under its own verb. -/
def Resources.UnderOwnKeys : Resources → Prop :=
  Resources.fold (fun key r below beside => (r.segment = key ∧ Raml.isResourceKey r.segment = true ∧
    ∀ e ∈ r.methods, e.2.verb = e.1) ∧ below ∧ beside) True

theorem Resources.underOwnKeys_cons {key : String} {r : Resource} {rest : Resources} :
    Resources.UnderOwnKeys ((key, r) :: rest) ↔
      (r.segment = key ∧ Raml.isResourceKey r.segment = true ∧ ∀ e ∈ r.methods, e.2.verb = e.1) ∧
        Resources.UnderOwnKeys r.children ∧ Resources.UnderOwnKeys rest := by
  rw [UnderOwnKeys, Resources.fold_cons]

namespace Raml

/-! ## §2 Parameters and methods -/

theorem readParameter_toValue (required : Bool) (decl : ParameterDecl) :
    readParameter required decl.toValue = .ok decl := by
  obtain ⟨displayName, description, type, pattern, required'⟩ := decl
  cases displayName <;> cases description <;> cases pattern <;> rfl

/-- **Parameters are read as they were written**, in their order. -/
theorem readParameters_toValue {decls : ParameterDecls} (h : (decls.map Prod.fst).Nodup) (required : Bool) :
    readParameters required (parametersToValue decls) = .ok decls := by
  show readParameterEntries required [] (decls.map fun e => (Value.text e.1, e.2.toValue)) = .ok decls
  rw [readParameterEntries_eq]
  refine foldlM_map_eq_ok (s := fun decls => decls) fun before ⟨name, decl⟩ after heq => ?_
  have hnew : name ∉ before.map Prod.fst := by
    rw [heq, List.map_append, List.map_cons, List.nodup_append] at h
    exact fun hmem => h.2.2 name hmem name List.mem_cons_self rfl
  exact readParameterEntry_eq_ok.mpr
    ⟨name, decl, rfl, readParameter_toValue required decl, (Entries.put_of_notMem hnew).symm⟩

/-- **A method is read as it was written.** -/
theorem readMethod_toValue {m : Method} (h : m.DeclaresOnce) : readMethod m.verb m.toValue = .ok m := by
  obtain ⟨verb, displayName, description, parameters⟩ := m
  have hparameters : MethodEntry.read? (.text "queryParameters", parametersToValue parameters) =
      some (.queryParameters parameters) := by
    rw [MethodEntry.read?_of_text rfl, if_neg (by decide), if_neg (by decide), if_pos rfl,
      readParameters_toValue h]
    rfl
  refine readMethod_mapping_eq_ok.mpr
    ⟨⟨some (some displayName), some (some description), some parameters⟩, ?_, rfl⟩
  have hname : readMethodEntry {} (.text "displayName", .text displayName) =
      .ok { displayName := some (some displayName) } := rfl
  have hdescription : readMethodEntry { displayName := some (some displayName) }
      (.text "description", .text description) =
        .ok { displayName := some (some displayName), description := some (some description) } := rfl
  exact bind_eq_ok.mpr ⟨_, hname, bind_eq_ok.mpr ⟨_, hdescription, bind_eq_ok.mpr
    ⟨_, readMethodEntry_eq_ok.mpr ⟨_, hparameters, rfl⟩, rfl⟩⟩⟩

/-! ## §3 Resources -/

section
variable {path : List String} {r : Resource}

theorem readMember_method (m : Method) (hm : m.DeclaresOnce) :
    readMember path r (.text m.verb.key, m.toValue) = .ok (r.addMethod m) := by
  have hkey : readKey path (.text m.verb.key) = .ok m.verb.key := rfl
  simp [readMember, hkey, Member.ofKey_key, readMethod_toValue hm, bind, Except.bind, pure, Except.pure]

theorem readMember_child {key : String} {child : Resource} {v : Value} (hkey : isResourceKey key = true)
    (hchild : readResource (path ++ [key]) key v = .ok child) :
    readMember path r (.text key, v) = .ok (r.addChildAt key child) := by
  have hread : readKey path (.text key) = .ok key := rfl
  simp [readMember, hread, Member.ofKey_of_isResourceKey hkey, hchild, bind, Except.bind, pure, Except.pure]

theorem readMember_uriParameters {decls : ParameterDecls} (h : (decls.map Prod.fst).Nodup) :
    readMember path r (.text "uriParameters", parametersToValue decls) =
      .ok { r with uriParameters := decls } := by
  have hkey : readKey path (.text "uriParameters") = .ok "uriParameters" := rfl
  have hkind : Member.ofKey "uriParameters" = .uriParameters := by decide
  simp [readMember, hkey, hkind, readParameters_toValue h, bind, Except.bind, pure, Except.pure]

theorem foldlM_methods {methods : List (Verb × Method)} (hmethods : Entries.Increasing methods)
    (hverbs : ∀ e ∈ methods, e.2.verb = e.1) (honce : ∀ e ∈ methods, e.2.DeclaresOnce) :
    (methods.map fun e => (Value.text e.1.key, e.2.toValue)).foldlM (readMember path) { r with methods := [] } =
      .ok { r with methods } := by
  refine foldlM_map_eq_ok (s := fun methods => { r with methods }) ?_
  rintro before ⟨verb, m⟩ after rfl
  have he : (verb, m) ∈ before ++ (verb, m) :: after := List.mem_append_right before List.mem_cons_self
  obtain rfl : m.verb = verb := hverbs _ he
  rw [readMember_method m (honce _ he), Resource.addMethod, Entries.insertSorted_of_increasing hmethods]

theorem foldlM_children {children : Resources} (hchildren : Entries.Increasing children)
    (hkeys : ∀ e ∈ children, isResourceKey e.1 = true)
    (hbelow : ∀ e ∈ children, ∀ path, readResource path e.1 e.2.toValue = .ok e.2) :
    children.toEntries.foldlM (readMember path) { r with children := [] } = .ok { r with children } := by
  rw [Resources.toEntries_eq]
  refine foldlM_map_eq_ok (s := fun children => { r with children }) ?_
  rintro before ⟨key, child⟩ after rfl
  have he : (key, child) ∈ before ++ (key, child) :: after := List.mem_append_right before List.mem_cons_self
  rw [readMember_child (hkeys _ he) (hbelow _ he _), Resource.addChildAt,
    Entries.insertSorted_of_increasing hchildren]

/-- **A resource is read as it was written**, if what is below it is. -/
theorem readResource_toValue (hmethods : Entries.Increasing r.methods)
    (hchildren : Entries.Increasing r.children) (hverbs : ∀ e ∈ r.methods, e.2.verb = e.1)
    (honce : r.DeclaresOnce) (hkeys : ∀ e ∈ r.children, isResourceKey e.1 = true)
    (hbelow : ∀ e ∈ r.children, ∀ path, readResource path e.1 e.2.toValue = .ok e.2) :
    readResource path r.segment r.toValue = .ok r := by
  obtain ⟨segment, displayName, description, methods, parameters, children⟩ := r
  have hname : (textEntry "displayName" displayName).foldlM (readMember path) (.empty segment) =
      .ok { segment, displayName } := by
    cases displayName <;> rfl
  have hdescription : (textEntry "description" description).foldlM (readMember path)
      { segment, displayName } = .ok { segment, displayName, description } := by
    cases description <;> rfl
  have hparameters : readMember path { segment, displayName, description }
      (.text "uriParameters", parametersToValue parameters) =
        .ok { segment, displayName, description, uriParameters := parameters } :=
    readMember_uriParameters honce.uriParameters
  have hmethodsRead : (methods.map fun e => (Value.text e.1.key, e.2.toValue)).foldlM (readMember path)
      { segment, displayName, description, uriParameters := parameters } =
        .ok { segment, displayName, description, methods, uriParameters := parameters } :=
    foldlM_methods (r := { segment, displayName, description, uriParameters := parameters }) hmethods hverbs
      honce.methods
  have hchildrenRead : (Resources.toEntries children).foldlM (readMember path)
      { segment, displayName, description, methods, uriParameters := parameters } =
        .ok { segment, displayName, description, methods, uriParameters := parameters, children } :=
    foldlM_children (r := { segment, displayName, description, methods, uriParameters := parameters })
      hchildren hkeys hbelow
  rw [Resource.toValue, readResource, readMembers_eq, Resource.ownEntries]
  simp only [List.foldlM_append, List.foldlM_cons, hname, hdescription, hparameters, hmethodsRead, hchildrenRead,
    bind, Except.bind]

end

/-- What is stored side by side is read as it was written, at every depth. -/
theorem readResource_toValue_of_mem {rs : Resources} (ordered : rs.Ordered) (own : rs.UnderOwnKeys)
    (once : rs.DeclareOnce) :
    ∀ e ∈ rs, isResourceKey e.1 = true ∧ ∀ path, readResource path e.1 e.2.toValue = .ok e.2 := by
  induction rs using Resources.induction with
  | nil => exact nofun
  | cons key r rest below beside =>
    obtain ⟨-, hmethods, hordered, hrest⟩ := Resources.ordered_cons.mp ordered
    obtain ⟨⟨rfl, hsegment, hverbs⟩, hown, hownRest⟩ := Resources.underOwnKeys_cons.mp own
    obtain ⟨hr, honce, honceRest⟩ := (Resources.every_cons ..).mp once
    have hbelow := below hordered hown honce
    refine List.forall_mem_cons.mpr ⟨⟨hsegment, fun path => ?_⟩, beside hrest hownRest honceRest⟩
    exact readResource_toValue hmethods hordered.keys hverbs hr (fun e he => (hbelow e he).1)
      fun e he => (hbelow e he).2

/-! ## §4 APIs -/

theorem lookup_toEntries {field : String} (hfield : isResourceKey field = false) {rs : Resources}
    (hkeys : ∀ e ∈ rs, isResourceKey e.1 = true) : Value.lookup field rs.toEntries = none := by
  rw [Resources.toEntries_eq]
  induction rs with
  | nil => rfl
  | cons e rest ih =>
    obtain ⟨hkey, hrest⟩ := List.forall_mem_cons.mp hkeys
    rw [List.map_cons, Value.lookup, if_neg (ne_of_isResourceKey hkey hfield), ih hrest]

theorem readTopEntry_resource {api : Api} {key : String} {r : Resource} {v : Value}
    (hkey : isResourceKey key = true) (hr : readResource [key] key v = .ok r) :
    readTopEntry api (.text key, v) = .ok (api.addResourceAt key r) := by
  have hread : readKey [] (.text key) = .ok key := rfl
  simp [readTopEntry, hread, hkey, hr, bind, Except.bind, pure, Except.pure]

theorem foldlM_resources (a : Api) {rs : Resources} (hrs : Entries.Increasing rs)
    (hread : ∀ e ∈ rs, isResourceKey e.1 = true ∧ ∀ path, readResource path e.1 e.2.toValue = .ok e.2) :
    rs.toEntries.foldlM readTopEntry { a with resources := [] } = .ok { a with resources := rs } := by
  rw [Resources.toEntries_eq]
  refine foldlM_map_eq_ok (s := fun resources => { a with resources }) ?_
  rintro before ⟨key, r⟩ after rfl
  obtain ⟨hkey, hr⟩ := hread (key, r) (List.mem_append_right before List.mem_cons_self)
  rw [readTopEntry_resource hkey (hr [key]), Api.addResourceAt, Entries.insertSorted_of_increasing hrs]

/-- **An API is read as it was written.** Where every resource is stored under its own segment and every method
under its own verb, and no parameter is declared twice, the value that spells the API is read as that API. -/
theorem readApi_toValue {api : Api} (ordered : api.resources.Ordered) (own : api.resources.UnderOwnKeys)
    (once : api.resources.DeclareOnce) : readApi api.toValue = .ok api := by
  obtain ⟨title, version, baseUri, resources⟩ := api
  have hread := readResource_toValue_of_mem ordered own once
  have hkeys : ∀ e ∈ resources, isResourceKey e.1 = true := fun e he => (hread e he).1
  refine readApi_mapping_eq_ok.mpr ⟨title, version, baseUri, rfl, ?version, ?baseUri, ?top⟩
  case version =>
    have hnone := lookup_toEntries (by decide : isResourceKey "version" = false) hkeys
    cases version <;> cases baseUri <;> simp [readField, Value.lookup, textEntry, hnone, readScalar, Except.map]
  case baseUri =>
    have hnone := lookup_toEntries (by decide : isResourceKey "baseUri" = false) hkeys
    cases version <;> cases baseUri <;> simp [readField, Value.lookup, textEntry, hnone, readScalar, Except.map]
  case top =>
    have htitle : readTopEntry { title, version, baseUri } (.text "title", .text title) =
        .ok { title, version, baseUri } := rfl
    have hversion : (textEntry "version" version).foldlM readTopEntry { title, version, baseUri } =
        .ok { title, version, baseUri } := by
      cases version <;> rfl
    have hbaseUri : (textEntry "baseUri" baseUri).foldlM readTopEntry { title, version, baseUri } =
        .ok { title, version, baseUri } := by
      cases baseUri <;> rfl
    have hresources : resources.toEntries.foldlM readTopEntry { title, version, baseUri } =
        .ok { title, version, baseUri, resources } :=
      foldlM_resources { title, version, baseUri } ordered.keys hread
    rw [readTop_eq]
    simp only [List.foldlM_append, List.foldlM_cons, htitle, hversion, hbaseUri, hresources, bind, Except.bind]

/-- An API with parameters that are not in the order of their names. -/
def shelvesApi : Api where
  title := "Shelves"
  version := some "v1"
  resources :=
    [("/shelves", {
      segment := "/shelves"
      displayName := some "Shelves"
      methods := [(.get, {
        verb := .get, displayName := "List shelves"
        queryParameters := [("size", { type := "integer", required := true }), ("after", {})] })]
      children := [("/id", {
        segment := "/id"
        methods := [(.get, { verb := .get, description := "One shelf" }), (.delete, { verb := .delete })]
        uriParameters := [("id", { pattern := some "[0-9]+" }), ("alias", { displayName := some "Alias" })] })] })]

theorem readApi_toValue_shelvesApi :
    (shelvesApi.resources.Ordered ∧ shelvesApi.resources.UnderOwnKeys ∧ shelvesApi.resources.DeclareOnce) ∧
      readApi shelvesApi.toValue = .ok shelvesApi := by
  have hverbs : Verb.get < Verb.delete := by decide
  have ordered : shelvesApi.resources.Ordered := by
    simp [shelvesApi, Resources.ordered_cons, Resources.ordered_nil, Entries.Increasing, hverbs]
  have own : shelvesApi.resources.UnderOwnKeys := by
    refine Resources.underOwnKeys_cons.mpr ⟨⟨rfl, by decide, by simp⟩, ?_, trivial⟩
    exact Resources.underOwnKeys_cons.mpr ⟨⟨rfl, by decide, by simp⟩, trivial, trivial⟩
  have once : shelvesApi.resources.DeclareOnce := by
    refine (Resources.every_cons ..).mpr ⟨⟨by simp, by simp [Method.DeclaresOnce]⟩, ?_, trivial⟩
    exact (Resources.every_cons ..).mpr ⟨⟨by simp, by simp [Method.DeclaresOnce]⟩, trivial, trivial⟩
  exact ⟨⟨ordered, own, once⟩, readApi_toValue ordered own once⟩

end Raml

end RouteStubs
