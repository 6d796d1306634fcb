import Mathlib.Data.List.Nodup
import RouteStubs.Proofs.Walk.Enumeration
/-!
Looking up the parameters of an endpoint by key.

An endpoint lists the URI parameters of every resource on its chain, the outermost first, and a look-up takes the
first one with the key. So what it finds is declared by the outermost resource that declares the key
(`DeclaresOutermost`); a declaration of the same key further down is in the list, but it is never found. Query
parameters are those of the method alone.

* `findSome?_inits_eq_some` — a search over the beginnings of a chain finds the shortest.
* `Resources.find?_parametersAlong` — the first parameter with a key on a chain, by look-ups only.
* `Walk.ofApi_resolves` — what looking up any key finds, for every endpoint of a walk.
-/

namespace RouteStubs

/-! ## §1 Declarations by name -/

/-- A search over the beginnings of a list, the shortest first, finds what the shortest has that has anything. -/
theorem findSome?_inits_eq_some {α β : Type} {f : List α → Option β} {l : List α} {b : β} :
    l.inits.findSome? f = some b ↔
      ∃ s, s <+: l ∧ f s = some b ∧ ∀ t, t <+: s → t ≠ s → f t = none := by
  induction l generalizing f with
  | nil =>
    show [[]].findSome? f = some b ↔ _
    rw [List.findSome?_singleton]
    constructor
    · intro h
      exact ⟨[], List.prefix_rfl, h, fun t ht hne => absurd (List.prefix_nil.mp ht) hne⟩
    · rintro ⟨s, hs, h, -⟩
      rwa [List.prefix_nil.mp hs] at h
  | cons a l ih =>
    rw [List.inits_cons, List.findSome?_cons, List.findSome?_map]
    cases hnil : f [] with
    | some c =>
      -- the empty beginning has something, and there is none before it
      constructor
      · intro h
        obtain rfl : c = b := Option.some.inj h
        exact ⟨[], List.nil_prefix, hnil, fun t ht hne => absurd (List.prefix_nil.mp ht) hne⟩
      · rintro ⟨s, -, hs, hshorter⟩
        cases s with
        | nil => exact hnil.symm.trans hs
        | cons a' s =>
          rw [hshorter [] List.nil_prefix (by simp)] at hnil
          cases hnil
    | none =>
      show l.inits.findSome? (f ∘ (a :: ·)) = some b ↔ _
      rw [ih]
      constructor
      · rintro ⟨s, hs, hfound, hshorter⟩
        refine ⟨a :: s, List.cons_prefix_cons.mpr ⟨rfl, hs⟩, hfound, fun t ht hne => ?_⟩
        cases t with
        | nil => exact hnil
        | cons a' t =>
          obtain ⟨rfl, hts⟩ := List.cons_prefix_cons.mp ht
          exact hshorter t hts (by simpa using hne)
      · rintro ⟨s, hs, hfound, hshorter⟩
        cases s with
        | nil =>
          rw [hnil] at hfound
          cases hfound
        | cons a' s =>
          obtain ⟨rfl, hsl⟩ := List.cons_prefix_cons.mp hs
          refine ⟨s, hsl, hfound, fun t ht hne => ?_⟩
          exact hshorter (a' :: t) (List.cons_prefix_cons.mpr ⟨rfl, ht⟩) (by simpa using hne)

namespace Parameter

/-- The parameters with a key that declarations give: one, if the key is declared. -/
theorem filter_ofDecls {decls : ParameterDecls} (h : (decls.map Prod.fst).Nodup) (name : String) :
    (ofDecls decls).filter (·.key == name) = ((decls.lookup name).map (ofDecl name)).toList := by
  induction decls with
  | nil => rfl
  | cons e rest ih =>
    obtain ⟨k, decl⟩ := e
    obtain ⟨hk, hrest⟩ := List.nodup_cons.mp h
    show (ofDecl k decl :: ofDecls rest).filter (·.key == name) = _
    by_cases hname : k = name
    · subst hname
      have hnone : rest.lookup k = none := by
        cases hlookup : rest.lookup k with
        | none => rfl
        | some d => exact absurd (List.mem_map.mpr ⟨(k, d), Entries.mem_of_lookup hlookup, rfl⟩) hk
      rw [List.filter_cons_of_pos (by simp [ofDecl]), ih hrest, hnone, List.lookup_cons_self]
      rfl
    · rw [List.filter_cons_of_neg (by simpa [ofDecl] using hname), ih hrest, List.lookup_cons,
        beq_false_of_ne fun heq => hname heq.symm]

/-- Among parameters that have no key twice, the first with a key is the one with that key. -/
theorem find?_key_eq_some {ps : List Parameter} (h : (ps.map key).Nodup) {name : String} {q : Parameter} :
    ps.find? (·.key == name) = some q ↔ q ∈ ps ∧ q.key = name := by
  constructor
  · intro hfind
    exact ⟨List.mem_of_find?_eq_some hfind, by simpa using List.find?_some hfind⟩
  · rintro ⟨hq, rfl⟩
    have hsome : (ps.find? (·.key == q.key)).isSome := List.find?_isSome.mpr ⟨q, hq, by simp⟩
    obtain ⟨first, hfirst⟩ := Option.isSome_iff_exists.mp hsome
    have hkey : first.key = q.key := by simpa using List.find?_some hfirst
    rw [hfirst, List.inj_on_of_nodup_map h (List.mem_of_find?_eq_some hfirst) hq hkey]

end Parameter

/-! ## §2 Declarations on a chain -/

/-- The resource at the end of a chain of keys declares a URI parameter. -/
def DeclaresParameter (rs : Resources) (chain : List String) (key : String) (decl : ParameterDecl) : Prop :=
  ∃ r, Api.find? rs chain = some r ∧ (key, decl) ∈ r.uriParameters

/-- The outermost resource on a chain of keys that declares the key declares it like this: the resource at the end
of some beginning of the chain does, and no resource further out declares the key at all. -/
def DeclaresOutermost (rs : Resources) (chain : List String) (key : String) (decl : ParameterDecl) : Prop :=
  ∃ above, above <+: chain ∧ DeclaresParameter rs above key decl ∧
    ∀ outer, outer <+: above → outer ≠ above → ∀ other, ¬ DeclaresParameter rs outer key other

namespace Resources

/-- What the resource at the end of a chain declares under a key. -/
def declaredAt (rs : Resources) (key : String) (chain : List String) : Option ParameterDecl :=
  (Api.find? rs chain).bind fun r => r.uriParameters.lookup key

variable {rs : Resources}

theorem declaredAt_eq_some (h : rs.DeclareOnce) {key : String} {chain : List String} {decl : ParameterDecl} :
    declaredAt rs key chain = some decl ↔ DeclaresParameter rs chain key decl := by
  unfold declaredAt DeclaresParameter
  rw [Option.bind_eq_some_iff]
  refine exists_congr fun r => and_congr_right fun hr => ?_
  exact Entries.lookup_eq_some_iff_mem (Every.of_find? h hr).uriParameters

theorem declaredAt_eq_none (h : rs.DeclareOnce) {key : String} {chain : List String} :
    declaredAt rs key chain = none ↔ ∀ decl, ¬ DeclaresParameter rs chain key decl := by
  rw [Option.eq_none_iff_forall_ne_some]
  exact forall_congr' fun decl => not_congr (declaredAt_eq_some h)

/-- The parameters with a key on a chain: one for each resource that declares the key, the outermost first. -/
theorem filter_parametersAlong (h : rs.DeclareOnce) (chain : List String) (key : String) :
    (parametersAlong rs chain).filter (·.key == key) = Parameter.ofDecls
      ((along rs chain).filterMap fun r => (r.uriParameters.lookup key).map fun decl => (key, decl)) := by
  unfold parametersAlong
  rw [List.filter_flatMap, Parameter.ofDecls, List.map_filterMap, List.filterMap_eq_flatMap_toList]
  refine List.flatMap_congr fun r hr => ?_
  obtain ⟨c, -, hc⟩ := List.mem_filterMap.mp hr
  rw [Parameter.filter_ofDecls (Every.of_find? h hc).uriParameters key, Option.map_map]
  rfl

/-- The first parameter with a key on a chain is that of the shortest beginning that declares one. -/
theorem find?_parametersAlong (h : rs.DeclareOnce) (chain : List String) (key : String) :
    (parametersAlong rs chain).find? (·.key == key) =
      (chain.inits.findSome? (declaredAt rs key)).map (Parameter.ofDecl key) := by
  rw [← List.head?_filter, filter_parametersAlong h, Parameter.ofDecls, List.map_filterMap]
  unfold along
  rw [List.filterMap_filterMap, List.head?_filterMap, List.map_findSome?]
  congr 1
  funext c
  show _ = ((Api.find? rs c).bind fun r => r.uriParameters.lookup key).map (Parameter.ofDecl key)
  cases Api.find? rs c with
  | none => rfl
  | some r => exact Option.map_map ..

end Resources

/-! ## §3 The endpoints of a walk -/

/-- What looking up parameters by key finds at an endpoint, which is that of a method at a place. -/
structure Endpoint.Resolves (e : Endpoint) (rs : Resources) (p : Place) (m : Method) : Prop where
  /-- There is a URI parameter for each resource on the chain that declares the key, the outermost first. -/
  uri_listed : ∀ key, Parameter.CarryEach
    ((rs.along p.chain).filterMap fun r => (r.uriParameters.lookup key).map fun decl => (key, decl))
    (e.uriParameters.filter (·.key == key))
  /-- What is found shows the declaration of the outermost of them: its type, its pattern and its requirement. -/
  uri_found : ∀ key q, e.uriParameter? key = some q ↔
    ∃ decl, DeclaresOutermost rs p.chain key decl ∧ q.Carries key decl
  uri_missing : ∀ key, e.uriParameter? key = none ↔
    ∀ above, above <+: p.chain → ∀ decl, ¬ DeclaresParameter rs above key decl
  query_found : ∀ key q, e.queryParameter? key = some q ↔
    ∃ decl, (key, decl) ∈ m.queryParameters ∧ q.Carries key decl
  query_missing : ∀ key, e.queryParameter? key = none ↔ ∀ decl, (key, decl) ∉ m.queryParameters
  query_increasing : e.queryParameters.Pairwise fun p q => Text.utf8 p.key < Text.utf8 q.key

namespace Declaration

variable {d : Declaration}

/-- No two query parameters of the endpoint have the same key. -/
theorem nodup_queryParameters (h : d.method.DeclaresOnce) :
    (d.endpoint.queryParameters.map Parameter.key).Nodup := by
  have hperm := (Walk.sortByKey_perm (Parameter.ofDecls d.method.queryParameters)).map Parameter.key
  rw [Parameter.map_key_ofDecls] at hperm
  exact hperm.nodup_iff.mpr h

/-- A query parameter that is found is declared by the method, and each that is declared is found. -/
theorem queryParameter?_eq_some (h : d.method.DeclaresOnce) {key : String} {q : Parameter} :
    d.endpoint.queryParameter? key = some q ↔
      ∃ decl, (key, decl) ∈ d.method.queryParameters ∧ q.Carries key decl := by
  have hmem : q ∈ d.endpoint.queryParameters ↔ q ∈ Parameter.ofDecls d.method.queryParameters :=
    (Walk.sortByKey_perm _).mem_iff
  unfold Endpoint.queryParameter?
  simp only [Parameter.carries_iff]
  rw [Parameter.find?_key_eq_some (nodup_queryParameters h), hmem]
  unfold Parameter.ofDecls
  rw [List.mem_map]
  constructor
  · rintro ⟨⟨⟨name, decl⟩, hdecl, rfl⟩, rfl⟩
    exact ⟨decl, hdecl, rfl⟩
  · rintro ⟨decl, hdecl, rfl⟩
    exact ⟨⟨(key, decl), hdecl, rfl⟩, rfl⟩

/-- What is found at the endpoint of a method, where no parameter is declared twice by one resource or method. -/
theorem endpoint_resolves {rs : Resources} (ordered : rs.Ordered) (once : rs.DeclareOnce)
    (hd : d ∈ Resources.declarations rs) : d.endpoint.Resolves rs d.toPlace d.method := by
  obtain ⟨⟨r, hr, hm⟩, hparameters⟩ := Resources.declares_of_mem_declarations ordered hd
  have hmethod : d.method.DeclaresOnce := (once.of_find? hr).methods (d.verb, d.method) (Entries.mem_of_lookup hm)
  have hlisted : d.endpoint.uriParameters = Resources.parametersAlong rs d.chain := hparameters
  have huri : ∀ key, d.endpoint.uriParameter? key =
      (d.chain.inits.findSome? (rs.declaredAt key)).map (Parameter.ofDecl key) := fun key => by
    unfold Endpoint.uriParameter?
    rw [hlisted, Resources.find?_parametersAlong once]
  refine ⟨?uri_listed, ?uri_found, ?uri_missing, ?query_found, ?query_missing, ?query_increasing⟩
  case uri_listed =>
    intro key
    rw [hlisted, Resources.filter_parametersAlong once]
    exact Parameter.carryEach_ofDecls _
  case uri_found =>
    intro key q
    rw [huri, Option.map_eq_some_iff]
    unfold DeclaresOutermost
    simp only [findSome?_inits_eq_some, Resources.declaredAt_eq_some once, Resources.declaredAt_eq_none once,
      Parameter.carries_iff]
    exact exists_congr fun decl => and_congr_right fun _ => eq_comm
  case uri_missing =>
    intro key
    rw [huri, Option.map_eq_none_iff, List.findSome?_eq_none_iff]
    simp only [List.mem_inits, Resources.declaredAt_eq_none once]
  case query_found => exact fun key q => queryParameter?_eq_some hmethod
  case query_missing =>
    intro key
    rw [Option.eq_none_iff_forall_ne_some]
    simp only [ne_eq, queryParameter?_eq_some hmethod]
    constructor
    · intro hnot decl hdecl
      exact hnot _ ⟨decl, hdecl, Parameter.carries_ofDecl key decl⟩
    · rintro hnot q ⟨decl, hdecl, -⟩
      exact hnot decl hdecl
  case query_increasing =>
    have hne := List.pairwise_map.mp (nodup_queryParameters hmethod)
    exact (Walk.sortByKey_sorted _).imp₂ (fun p q hle hne => hle.resolve_left hne) hne

end Declaration

/-- **What looking up a key finds at the endpoints of a walk.** The endpoints are those of the methods at all places,
in the order of places. A URI parameter that is found is declared by the outermost resource on the chain that declares
its key, however often it is declared again below, and none is found exactly if no resource on the chain declares the
key. A query parameter is found exactly if the method declares it, and the keys of query parameters increase
strictly. -/
theorem Walk.ofApi_resolves (api : Api) (ordered : api.resources.Ordered) (once : api.resources.DeclareOnce)
    {es : List Endpoint} (h : (ofApi api).toExcept = .ok es) :
    ∃ places : List Place, places.Pairwise Place.Before ∧
      (∀ p, p ∈ places ↔ ∃ m, Declares api.resources p m) ∧
      List.Forall₂ (fun p e => ∃ m, Declares api.resources p m ∧
        e.path = String.join p.chain ∧ e.verb = m.verb ∧ e.Resolves api.resources p m) places es := by
  refine ⟨(Resources.declarations api.resources).map Declaration.toPlace, ?increasing,
    Resources.mem_places_iff ordered, ?resolves⟩
  case increasing =>
    rw [List.pairwise_map]
    exact Resources.declarations_before ordered
  case resolves =>
    rw [eq_of_toExcept_eq_ok h, List.forall₂_map_left_iff, List.forall₂_map_right_iff, List.forall₂_same]
    intro d hd
    exact ⟨d.method, (Resources.declares_of_mem_declarations ordered hd).1, rfl, rfl,
      Declaration.endpoint_resolves ordered once hd⟩

theorem forkedApi_declareOnce (name : String) : (forkedApi name).resources.DeclareOnce := by
  unfold Resources.DeclareOnce forkedApi
  simp only [Resources.every_cons, Resources.every_nil, and_true]
  refine ⟨⟨?_, ?_⟩, ⟨?_, ?_⟩, ⟨?_, ?_⟩⟩ <;> simp [Method.DeclaresOnce]

/-- The parameter `id` is declared at `/a` and again below it with another type, and the first declaration is found at
both places. The other chain with the path `/a/b` has none. -/
theorem Walk.ofApi_resolves_forkedApi :
    let api := forkedApi "Get b"
    let es := (Resources.declarations api.resources).map Declaration.endpoint
    (api.resources.Ordered ∧ api.resources.DeclareOnce ∧ (ofApi api).toExcept = .ok es) ∧
      (∃ places : List Place, places.Pairwise Place.Before ∧
        (∀ p, p ∈ places ↔ ∃ m, Declares api.resources p m) ∧
        List.Forall₂ (fun p e => ∃ m, Declares api.resources p m ∧
          e.path = String.join p.chain ∧ e.verb = m.verb ∧ e.Resolves api.resources p m) places es) ∧
      es.map (fun e => (e.path, e.uriParameter? "id", e.queryParameter? "page")) =
        [("/a", some ⟨"id", "integer", some "[0-9]+", true⟩, none),
          ("/a", some ⟨"id", "integer", some "[0-9]+", true⟩, none),
          ("/a/b", some ⟨"id", "integer", some "[0-9]+", true⟩, some ⟨"page", "integer", none, true⟩),
          ("/a/b", none, none)] ∧
      es[2]?.map (fun e => e.uriParameters.map fun q => (q.key, q.type)) =
        some [("id", "integer"), ("v", "string"), ("id", "number")] := by
  intro api es
  have hok : (ofApi api).toExcept = .ok es := by decide
  exact ⟨⟨forkedApi_ordered _, forkedApi_declareOnce _, hok⟩,
    ofApi_resolves api (forkedApi_ordered _) (forkedApi_declareOnce _) hok, by decide, by decide⟩

end RouteStubs
