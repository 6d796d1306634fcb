import RouteStubs.Proofs.Walk.Declarations
/-!
What a walk that is not stopped delivers.

* `Walk.sortByKey_perm`, `Walk.sortByKey_sorted` — query parameters are put into the order of their keys.
* `Walk.ofApi_enumerates` — over an API whose methods all have a display name, a walk delivers one
  endpoint for each place where a method is declared, in the order of places.
-/

namespace RouteStubs

/-! ## §1 Query parameters by key -/

theorem Parameter.map_key_ofDecls (decls : ParameterDecls) :
    (ofDecls decls).map key = decls.map Prod.fst := by
  unfold ofDecls
  rw [List.map_map]
  rfl

namespace Walk

theorem insertByKey_perm (p : Parameter) (ps : List Parameter) :
    (insertByKey p ps).Perm (p :: ps) := by
  induction ps with
  | nil => exact List.Perm.refl _
  | cons q rest ih =>
    rw [insertByKey]
    split
    · exact List.Perm.refl _
    · exact (ih.cons q).trans (List.Perm.swap p q rest)

theorem foldl_insertByKey_perm (ps sorted : List Parameter) :
    (ps.foldl (fun sorted p => insertByKey p sorted) sorted).Perm (ps ++ sorted) := by
  induction ps generalizing sorted with
  | nil => exact List.Perm.refl _
  | cons p rest ih =>
    refine (ih (insertByKey p sorted)).trans ?_
    exact ((insertByKey_perm p sorted).append_left rest).trans List.perm_middle

/-- Sorting keeps every parameter. -/
theorem sortByKey_perm (ps : List Parameter) : (sortByKey ps).Perm ps := by
  simpa [sortByKey] using foldl_insertByKey_perm ps []

/-- No parameter comes after one with a larger key. -/
def SortedByKey (ps : List Parameter) : Prop := ps.Pairwise fun p q => ¬ q.key < p.key

theorem insertByKey_sorted (p : Parameter) {ps : List Parameter} (h : SortedByKey ps) :
    SortedByKey (insertByKey p ps) := by
  induction ps with
  | nil => exact List.pairwise_singleton _ _
  | cons q rest ih =>
    obtain ⟨hq, hrest⟩ := List.pairwise_cons.mp h
    rw [insertByKey]
    split
    case isTrue hlt =>
      refine List.pairwise_cons.mpr ⟨fun r hr hrp => ?_, h⟩
      rcases List.mem_cons.mp hr with rfl | hr
      · exact String.lt_asymm hlt hrp
      · exact hq r hr (String.lt_trans hrp hlt)
    case isFalse hnot =>
      refine List.pairwise_cons.mpr ⟨fun r hr => ?_, ih hrest⟩
      rcases List.mem_cons.mp ((insertByKey_perm p rest).mem_iff.mp hr) with rfl | hr
      · exact hnot
      · exact hq r hr

theorem foldl_insertByKey_sorted (ps : List Parameter) {sorted : List Parameter}
    (h : SortedByKey sorted) :
    SortedByKey (ps.foldl (fun sorted p => insertByKey p sorted) sorted) := by
  induction ps generalizing sorted with
  | nil => exact h
  | cons p rest ih => exact ih (insertByKey_sorted p h)

/-- Sorting puts the keys into the order of their bytes. -/
theorem sortByKey_sorted (ps : List Parameter) :
    (sortByKey ps).Pairwise fun p q => p.key = q.key ∨ Text.utf8 p.key < Text.utf8 q.key := by
  have hsorted : SortedByKey (sortByKey ps) := foldl_insertByKey_sorted ps List.Pairwise.nil
  refine hsorted.imp fun {p q} hnot => ?_
  by_cases hlt : p.key < q.key
  · exact Or.inr (Text.lt_iff_utf8_lt.mp hlt)
  · exact Or.inl (String.le_antisymm (String.not_lt.mp hnot) (String.not_lt.mp hlt))

end Walk

/-! ## §2 The endpoints of a forest -/

/-- The endpoint describes a method at a place of a forest. Its URI parameters show what the resources on the chain
declare, the outermost first and each in the order of its declarations; its query parameters show what the method
declares, by key. -/
structure Endpoint.Describes (e : Endpoint) (rs : Resources) (p : Place) (m : Method) : Prop where
  verb : e.verb = p.verb
  path : e.path = String.join p.chain
  handler : e.handler = handlerName m.displayName
  description : e.description = m.description
  uriParameters : Parameter.CarryEach (rs.declarationsAlong p.chain) e.uriParameters
  queryParameters_perm : ∃ ps, Parameter.CarryEach m.queryParameters ps ∧ e.queryParameters.Perm ps
  queryParameters_sorted :
    e.queryParameters.Pairwise fun p q => p.key = q.key ∨ Text.utf8 p.key < Text.utf8 q.key

/-- The endpoints enumerate a forest: they describe, one by one, the methods at places that increase
strictly and are all the places where a method is declared. -/
structure Enumerates (rs : Resources) (places : List Place) (es : List Endpoint) : Prop where
  increasing : places.Pairwise Place.Before
  nodup : places.Nodup
  mem_iff : ∀ p, p ∈ places ↔ ∃ m, Declares rs p m
  describes : List.Forall₂ (fun p e => ∃ m, Declares rs p m ∧ e.Describes rs p m) places es

theorem Resources.declarations_nodup {rs : Resources} (h : rs.Ordered) :
    ((declarations rs).map Declaration.toPlace).Nodup := by
  rw [List.nodup_iff_pairwise_ne, List.pairwise_map]
  refine (declarations_before h).imp fun {a b} hbefore heq => ?_
  rw [heq] at hbefore
  exact Place.not_before_self _ hbefore

theorem Resources.mem_places_iff {rs : Resources} (h : rs.Ordered) (p : Place) :
    p ∈ (declarations rs).map Declaration.toPlace ↔ ∃ m, Declares rs p m := by
  constructor
  · intro hp
    obtain ⟨d, hd, rfl⟩ := List.mem_map.mp hp
    exact ⟨d.method, (declares_of_mem_declarations h hd).1⟩
  · rintro ⟨m, hm⟩
    obtain ⟨d, hd, hplace, -⟩ := exists_mem_declarations hm
    exact List.mem_map.mpr ⟨d, hd, hplace⟩

/-- What holds of every declaration holds of everything that is declared. -/
theorem Resources.forall_declares {rs : Resources} {P : Place → Method → Prop}
    (h : ∀ d ∈ declarations rs, P d.toPlace d.method) (p : Place) (m : Method)
    (hm : Declares rs p m) : P p m := by
  obtain ⟨d, hd, rfl, rfl⟩ := exists_mem_declarations hm
  exact h d hd

theorem Declaration.endpoint_describes {rs : Resources} (h : rs.Ordered)
    (own : ∀ p m, Declares rs p m → m.verb = p.verb) {d : Declaration}
    (hd : d ∈ Resources.declarations rs) : d.endpoint.Describes rs d.toPlace d.method := by
  obtain ⟨hdeclares, hparameters⟩ := Resources.declares_of_mem_declarations h hd
  exact {
    verb := own _ _ hdeclares
    path := rfl
    handler := rfl
    description := rfl
    uriParameters := by
      show Parameter.CarryEach _ d.parameters
      rw [hparameters]
      exact Resources.carryEach_declarationsAlong rs d.chain
    queryParameters_perm := ⟨_, Parameter.carryEach_ofDecls _, Walk.sortByKey_perm _⟩
    queryParameters_sorted := Walk.sortByKey_sorted _ }

theorem Declaration.isNamed_iff {d : Declaration} :
    d.isNamed = true ↔ d.method.displayName ≠ "" := by
  simp [isNamed]

namespace Walk

/-- **A walk enumerates what is declared.** Where every method is stored under its own verb and has a
display name, the walk succeeds. It delivers an endpoint for each place at which a method is declared,
once and in the order of places, and as many as there are methods. -/
theorem ofApi_enumerates (api : Api) (ordered : api.resources.Ordered)
    (own : ∀ p m, Declares api.resources p m → m.verb = p.verb)
    (named : ∀ p m, Declares api.resources p m → m.displayName ≠ "") :
    ∃ places es, (ofApi api).toExcept = .ok es ∧ Enumerates api.resources places es ∧
      es.length = api.methodCount := by
  have hnamed : ∀ d ∈ Resources.declarations api.resources, d.isNamed = true := fun d hd =>
    Declaration.isNamed_iff.mpr (named _ _ (Resources.declares_of_mem_declarations ordered hd).1)
  refine ⟨(Resources.declarations api.resources).map Declaration.toPlace,
    (Resources.declarations api.resources).map Declaration.endpoint, ?ok, ?enumerates, ?count⟩
  case ok => rw [ofApi_of_named hnamed, toExcept]
  case enumerates =>
    refine ⟨?_, Resources.declarations_nodup ordered, Resources.mem_places_iff ordered, ?_⟩
    · rw [List.pairwise_map]
      exact Resources.declarations_before ordered
    · rw [List.forall₂_map_left_iff, List.forall₂_map_right_iff, List.forall₂_same]
      exact fun d hd => ⟨d.method, (Resources.declares_of_mem_declarations ordered hd).1,
        Declaration.endpoint_describes ordered own hd⟩
  case count => rw [List.length_map, Resources.length_declarations, Api.methodCount]

end Walk

/-- An API in which two chains of keys spell the same path, and in which a resource declares a parameter that one
above it declares otherwise. One of its four methods has the given name. -/
def forkedApi (name : String) : Api where
  title := "Forked"
  resources :=
    [("/a", {
        segment := "/a"
        methods := [(.get, { verb := .get, displayName := "List a" }),
          (.delete, { verb := .delete, displayName := "Drop a" })]
        uriParameters := [("id", { type := "integer", pattern := some "[0-9]+", required := true }), ("v", {})]
        children := [("/b", {
          segment := "/b"
          methods := [(.get, {
            verb := .get, displayName := name
            queryParameters :=
              [("q", { pattern := some "[a-z]*" }), ("page", { type := "integer", required := true })] })]
          uriParameters := [("id", { type := "number" })] })] }),
      ("/a/b", {
        segment := "/a/b"
        methods := [(.post, { verb := .post, displayName := "Post b" })] })]

theorem forkedApi_ordered (name : String) : (forkedApi name).resources.Ordered := by
  have hkeys : "/a" < "/a/b" := by decide
  have hverbs : Verb.get < Verb.delete := by decide
  simp only [forkedApi, Resources.ordered_cons, Resources.ordered_nil, Entries.increasing_cons,
    List.forall_mem_cons]
  simp [hkeys, hverbs, Entries.Increasing]

/-- The method below `/b` has the parameters of `/a` in front of its own, each as it is declared there. -/
theorem Walk.ofApi_enumerates_forkedApi :
    ((forkedApi "Get b").resources.Ordered ∧
      (∀ p m, Declares (forkedApi "Get b").resources p m → m.verb = p.verb) ∧
      ∀ p m, Declares (forkedApi "Get b").resources p m → m.displayName ≠ "") ∧
    (∃ places es, (ofApi (forkedApi "Get b")).toExcept = .ok es ∧
      Enumerates (forkedApi "Get b").resources places es ∧ es.length = 4) ∧
    ((ofApi (forkedApi "Get b")).endpoints[2]?.map fun e => (e.path, e.uriParameters, e.queryParameters)) =
      some ("/a/b",
        [⟨"id", "integer", some "[0-9]+", true⟩, ⟨"v", "string", none, false⟩, ⟨"id", "number", none, false⟩],
        [⟨"page", "integer", none, true⟩, ⟨"q", "string", some "[a-z]*", false⟩]) := by
  have own : ∀ p m, Declares (forkedApi "Get b").resources p m → m.verb = p.verb :=
    Resources.forall_declares (by decide)
  have named : ∀ p m, Declares (forkedApi "Get b").resources p m → m.displayName ≠ "" :=
    Resources.forall_declares (by decide)
  exact ⟨⟨forkedApi_ordered _, own, named⟩,
    ofApi_enumerates _ (forkedApi_ordered _) own named, by decide⟩

end RouteStubs
