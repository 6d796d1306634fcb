import Mathlib.Data.List.Forall2
import Mathlib.Data.List.TakeWhile
import RouteStubs.Proofs.Resources
import RouteStubs.Walk
/-!
A walk as one pass over the declared methods.

`Resources.declarations` lists the declared methods of a forest, each with its place and the parameters
of the resources on the way to it. The main statements:

* `Walk.ofApi_eq` — the walk over an API is a pass over that list: the endpoints of the methods before the
  first one without a name, and that one as what stops the walk.
* `Resources.declares_of_mem_declarations`, `Resources.exists_mem_declarations` — the list holds exactly
  what the forest declares, with the parameters of the resources along the chain.
* `Resources.carryEach_declarationsAlong` — those parameters show, one by one, what the resources declare.
* `Resources.declarations_before` — the list is in the order of places.
* `Resources.length_declarations` — the list is as long as the methods are many.
-/

namespace RouteStubs

/-! ## §1 Declarations -/

/-- The parameter shows a declaration that is made under a key: it has that key, and the type, the pattern and the
requirement that are declared. -/
structure Parameter.Carries (p : Parameter) (key : String) (decl : ParameterDecl) : Prop where
  key : p.key = key
  type : p.type = decl.type
  pattern : p.pattern = decl.pattern
  required : p.required = decl.required

namespace Parameter

/-- The parameters show the declarations, one by one and in order. -/
def CarryEach (decls : ParameterDecls) (ps : List Parameter) : Prop :=
  List.Forall₂ (fun d p => Carries p d.1 d.2) decls ps

/-- There is one parameter that shows a declaration. -/
theorem carries_iff {p : Parameter} {key : String} {decl : ParameterDecl} :
    p.Carries key decl ↔ p = ofDecl key decl := by
  constructor
  · rintro ⟨rfl, htype, hpattern, hrequired⟩
    rw [ofDecl, ← htype, ← hpattern, ← hrequired]
  · rintro rfl
    exact ⟨rfl, rfl, rfl, rfl⟩

theorem carries_ofDecl (key : String) (decl : ParameterDecl) : (ofDecl key decl).Carries key decl :=
  carries_iff.mpr rfl

theorem carryEach_ofDecls (decls : ParameterDecls) : CarryEach decls (ofDecls decls) := by
  rw [CarryEach, ofDecls, List.forall₂_map_right_iff, List.forall₂_same]
  exact fun d _ => carries_ofDecl d.1 d.2

end Parameter

/-- What the resources on a chain of keys declare, those of the outermost first. -/
def Resources.declarationsAlong (rs : Resources) (chain : List String) : ParameterDecls :=
  (rs.along chain).flatMap Resource.uriParameters

theorem Resources.parametersAlong_eq (rs : Resources) (chain : List String) :
    parametersAlong rs chain = Parameter.ofDecls (rs.declarationsAlong chain) := by
  unfold parametersAlong declarationsAlong Parameter.ofDecls
  rw [List.map_flatMap]

theorem Resources.carryEach_declarationsAlong (rs : Resources) (chain : List String) :
    Parameter.CarryEach (rs.declarationsAlong chain) (parametersAlong rs chain) := by
  rw [parametersAlong_eq]
  exact Parameter.carryEach_ofDecls _

/-- A declared method, with its place and the parameters of the resources on the way to it. -/
structure Declaration extends Place where
  method : Method
  parameters : List Parameter
  deriving DecidableEq, Repr

namespace Declaration

/-- A method of a resource, seen from the resource. -/
def onResource (e : Verb × Method) : Declaration := ⟨⟨[], e.1⟩, e.2, []⟩

/-- A declaration below a resource, seen from where the resource is stored under a key. -/
def under (key : String) (r : Resource) (d : Declaration) : Declaration :=
  ⟨⟨key :: d.chain, d.verb⟩, d.method, Parameter.ofDecls r.uriParameters ++ d.parameters⟩

/-- The method has a display name. -/
def isNamed (d : Declaration) : Bool := !d.method.displayName.isEmpty

/-- The endpoint of the method. -/
def endpoint (d : Declaration) : Endpoint :=
  ⟨d.method.verb, handlerName d.method.displayName, String.join d.chain, d.method.description,
    d.parameters, Walk.sortByKey (Parameter.ofDecls d.method.queryParameters)⟩

/-- The method as one that stops a walk. -/
def missing (d : Declaration) : MissingHandlerName := ⟨d.method.verb, String.join d.chain⟩

/-- The walk over the method, where the forest is below a path with parameters of its own. -/
def visit (path : String) (inherited : List Parameter) (d : Declaration) : Walk :=
  Walk.ofMethod (path ++ String.join d.chain) (inherited ++ d.parameters) d.method

theorem visit_onResource (path : String) (inherited : List Parameter) (e : Verb × Method) :
    visit path inherited (onResource e) = Walk.ofMethod path inherited e.2 := by
  simp [visit, onResource]

/-- What a resource adds to a path and to the parameters may be added before or after going below it. -/
theorem visit_under (path : String) (inherited : List Parameter) (key : String) (r : Resource)
    (d : Declaration) :
    visit path inherited (under key r d) =
      visit (path ++ key) (inherited ++ Parameter.ofDecls r.uriParameters) d := by
  simp [visit, under, String.append_assoc]

theorem visit_of_named {d : Declaration} (h : d.isNamed = true) :
    visit "" [] d = ⟨[d.endpoint], none⟩ := by
  simp [isNamed] at h
  simp [visit, Walk.ofMethod, endpoint, h]

theorem visit_of_not_named {d : Declaration} (h : d.isNamed = false) :
    visit "" [] d = ⟨[], some d.missing⟩ := by
  simp [isNamed] at h
  simp [visit, Walk.ofMethod, missing, h]

end Declaration

namespace Resources

/-- The declared methods of a forest: those of the first resource, those below it, and those beside
it. -/
def declarations : Resources → List Declaration :=
  fold (fun key r below beside =>
    (r.methods.map Declaration.onResource ++ below).map (Declaration.under key r) ++ beside) []

@[simp] theorem declarations_nil : declarations [] = [] := rfl

theorem declarations_cons (key : String) (r : Resource) (rest : Resources) :
    declarations ((key, r) :: rest) =
      (r.methods.map Declaration.onResource ++ declarations r.children).map
        (Declaration.under key r) ++ declarations rest := by
  rw [declarations, fold_cons]

theorem mem_declarations_cons {key : String} {r : Resource} {rest : Resources} {d : Declaration} :
    d ∈ declarations ((key, r) :: rest) ↔
      (∃ e ∈ r.methods, (Declaration.onResource e).under key r = d) ∨
        (∃ d' ∈ declarations r.children, d'.under key r = d) ∨ d ∈ declarations rest := by
  simp [declarations_cons]

end Resources

/-! ## §2 A walk is one pass -/

namespace Walk

@[simp] theorem nothing_andThen (w : Walk) : nothing.andThen w = w := by simp [andThen, nothing]

@[simp] theorem andThen_nothing (w : Walk) : w.andThen nothing = w := by
  obtain ⟨endpoints, _ | stopped⟩ := w <;> simp [andThen, nothing]

theorem andThen_assoc (u v w : Walk) : (u.andThen v).andThen w = u.andThen (v.andThen w) := by
  obtain ⟨_, _ | _⟩ := u
  · obtain ⟨_, _ | _⟩ := v <;> simp [andThen]
  · rfl

/-- Walks one after the other, up to the first that is stopped. -/
def sequence (walks : List Walk) : Walk := walks.foldr andThen nothing

@[simp] theorem sequence_nil : sequence [] = nothing := rfl

@[simp] theorem sequence_cons (w : Walk) (walks : List Walk) :
    sequence (w :: walks) = w.andThen (sequence walks) := rfl

theorem sequence_append (as bs : List Walk) :
    sequence (as ++ bs) = (sequence as).andThen (sequence bs) := by
  induction as with
  | nil => simp
  | cons w as ih => rw [List.cons_append, sequence_cons, sequence_cons, ih, andThen_assoc]

theorem ofMethods_eq (path : String) (parameters : List Parameter) (methods : List (Verb × Method)) :
    ofMethods path parameters methods =
      sequence ((methods.map Declaration.onResource).map (Declaration.visit path parameters)) := by
  induction methods with
  | nil => rfl
  | cons e rest ih =>
    rw [ofMethods, ih, List.map_cons, List.map_cons, sequence_cons, Declaration.visit_onResource]

theorem ofResource_eq (path : String) (inherited : List Parameter) (r : Resource) :
    ofResource path inherited r =
      (ofMethods path (inherited ++ Parameter.ofDecls r.uriParameters) r.methods).andThen
        (ofResources path (inherited ++ Parameter.ofDecls r.uriParameters) r.children) := by
  cases r
  rfl

theorem ofResources_cons (path : String) (inherited : List Parameter) (key : String) (r : Resource)
    (rest : Resources) :
    ofResources path inherited ((key, r) :: rest) =
      ((ofMethods (path ++ key) (inherited ++ Parameter.ofDecls r.uriParameters) r.methods).andThen
        (ofResources (path ++ key) (inherited ++ Parameter.ofDecls r.uriParameters)
          r.children)).andThen (ofResources path inherited rest) := by
  cases r
  rfl

/-- A walk over a forest goes over its declarations one after the other. -/
theorem ofResources_eq (path : String) (inherited : List Parameter) (rs : Resources) :
    ofResources path inherited rs =
      sequence ((Resources.declarations rs).map (Declaration.visit path inherited)) := by
  induction rs using Resources.induction generalizing path inherited with
  | nil => rfl
  | cons key r rest below beside =>
    have hunder : ∀ ds : List Declaration,
        (ds.map (Declaration.under key r)).map (Declaration.visit path inherited) =
          ds.map (Declaration.visit (path ++ key)
            (inherited ++ Parameter.ofDecls r.uriParameters)) := fun ds => by
      rw [List.map_map]
      exact List.map_congr_left fun d _ => Declaration.visit_under path inherited key r d
    rw [ofResources_cons, ofMethods_eq, below, beside, Resources.declarations_cons,
      List.map_append, hunder, List.map_append, sequence_append, sequence_append]

/-- A pass over declarations delivers those before the first without a name, and is stopped by it. -/
theorem sequence_visit (ds : List Declaration) :
    sequence (ds.map (Declaration.visit "" [])) =
      ⟨(ds.takeWhile Declaration.isNamed).map Declaration.endpoint,
        (ds.find? fun d => !d.isNamed).map Declaration.missing⟩ := by
  induction ds with
  | nil => rfl
  | cons d ds ih =>
    rw [List.map_cons, sequence_cons, ih]
    cases h : d.isNamed with
    | true => simp [Declaration.visit_of_named h, andThen, h]
    | false => simp [Declaration.visit_of_not_named h, andThen, h]

/-- **A walk is one pass over the declarations.** -/
theorem ofApi_eq (api : Api) :
    ofApi api =
      ⟨((Resources.declarations api.resources).takeWhile Declaration.isNamed).map
          Declaration.endpoint,
        ((Resources.declarations api.resources).find? fun d => !d.isNamed).map
          Declaration.missing⟩ := by
  rw [ofApi, ofResources_eq, sequence_visit]

/-- A walk over methods that all have a name delivers every endpoint. -/
theorem ofApi_of_named {api : Api}
    (h : ∀ d ∈ Resources.declarations api.resources, d.isNamed = true) :
    ofApi api = ⟨(Resources.declarations api.resources).map Declaration.endpoint, none⟩ := by
  have hnone : (Resources.declarations api.resources).find? (fun d => !d.isNamed) = none :=
    List.find?_eq_none.mpr fun d hd => by simp [h d hd]
  rw [ofApi_eq, List.takeWhile_eq_self_iff.mpr h, hnone, Option.map_none]

/-- A walk is stopped by the first method without a name, after the endpoints of all before it. -/
theorem ofApi_of_split {api : Api} {before after : List Declaration} {d : Declaration}
    (hsplit : Resources.declarations api.resources = before ++ d :: after)
    (hbefore : ∀ b ∈ before, b.isNamed = true) (hd : d.isNamed = false) :
    ofApi api = ⟨before.map Declaration.endpoint, some d.missing⟩ := by
  have hfind : before.find? (fun d => !d.isNamed) = none :=
    List.find?_eq_none.mpr fun b hb => by simp [hbefore b hb]
  rw [ofApi_eq, hsplit, List.takeWhile_append_of_pos hbefore, List.find?_append, hfind]
  simp [hd]

/-- A walk that is not stopped delivers the endpoints of all declared methods. -/
theorem eq_of_toExcept_eq_ok {api : Api} {es : List Endpoint} (h : (ofApi api).toExcept = .ok es) :
    es = (Resources.declarations api.resources).map Declaration.endpoint := by
  cases hfind : (Resources.declarations api.resources).find? fun d => !d.isNamed with
  | some d =>
    rw [ofApi_eq, hfind, toExcept] at h
    cases h
  | none =>
    have hnamed : ∀ d ∈ Resources.declarations api.resources, d.isNamed = true := by
      simpa using List.find?_eq_none.mp hfind
    rw [ofApi_of_named hnamed, toExcept] at h
    exact (Except.ok.inj h).symm

end Walk

/-! ## §3 What is declared, and where -/

namespace Resources

/-- A declaration is found at its place, with the parameters of the resources along its chain. -/
theorem declares_of_mem_declarations {rs : Resources} (h : rs.Ordered) {d : Declaration}
    (hd : d ∈ declarations rs) :
    Declares rs d.toPlace d.method ∧ d.parameters = parametersAlong rs d.chain := by
  induction rs using Resources.induction generalizing d with
  | nil => cases hd
  | cons key r rest below beside =>
    obtain ⟨hfirst, hmethods, hchildren, hrest⟩ := ordered_cons.mp h
    rcases mem_declarations_cons.mp hd with ⟨e, he, rfl⟩ | ⟨d', hd', rfl⟩ | hd
    · refine ⟨⟨r, Api.find?_cons_self_nil key r rest, ?_⟩, ?_⟩
      · exact Entries.lookup_of_mem Verb.lt_irrefl hmethods he
      · simp [Declaration.under, Declaration.onResource, parametersAlong, along_cons_self]
    · obtain ⟨⟨r', hr', hm⟩, hparameters⟩ := below hchildren hd'
      obtain ⟨k, ks, -, hchain, -⟩ := Api.find?_eq_some hr'
      have hne : d'.chain ≠ [] := by simp [hchain]
      refine ⟨⟨r', (Api.find?_cons_self key r rest hne).trans hr', hm⟩, ?_⟩
      simp [Declaration.under, parametersAlong, along_cons_self, hparameters]
    · obtain ⟨⟨r', hr', hm⟩, hparameters⟩ := beside hrest hd
      obtain ⟨k, ks, e, hchain, he⟩ := Api.find?_eq_some hr'
      have hne : k ≠ key := by
        rintro rfl
        exact String.lt_irrefl k (hfirst _ he)
      refine ⟨⟨r', ?_, hm⟩, ?_⟩
      · rw [hchain] at hr' ⊢
        rw [Api.find?_cons_of_ne hne, hr']
      · rw [hparameters, hchain, parametersAlong, parametersAlong, along_cons_of_ne hne]

/-- What the forest declares has a declaration. -/
theorem exists_mem_declarations {rs : Resources} {p : Place} {m : Method} (h : Declares rs p m) :
    ∃ d ∈ declarations rs, d.toPlace = p ∧ d.method = m := by
  obtain ⟨chain, verb⟩ := p
  induction rs using Resources.induction generalizing chain with
  | nil =>
    obtain ⟨r, hr, -⟩ := h
    obtain ⟨k, ks, e, -, he⟩ := Api.find?_eq_some hr
    cases he
  | cons key r rest below beside =>
    obtain ⟨r', hr', hm⟩ := h
    obtain ⟨k, ks, -, hchain, -⟩ := Api.find?_eq_some hr'
    obtain rfl : chain = k :: ks := hchain
    by_cases hk : k = key
    · subst hk
      cases ks with
      | nil =>
        obtain rfl : r = r' := Option.some.inj ((Api.find?_cons_self_nil k r rest).symm.trans hr')
        exact ⟨(Declaration.onResource (verb, m)).under k r,
          mem_declarations_cons.mpr (.inl ⟨(verb, m), Entries.mem_of_lookup hm, rfl⟩), rfl, rfl⟩
      | cons l ls =>
        have hr := (Api.find?_cons_self k r rest (by simp)).symm.trans hr'
        obtain ⟨d, hd, hplace, hmethod⟩ := below (l :: ls) ⟨r', hr, hm⟩
        refine ⟨d.under k r, mem_declarations_cons.mpr (.inr (.inl ⟨d, hd, rfl⟩)), ?_, hmethod⟩
        simp [Declaration.under, hplace]
    · have hr := (Api.find?_cons_of_ne hk r rest ks).symm.trans hr'
      obtain ⟨d, hd, hplace, hmethod⟩ := beside (k :: ks) ⟨r', hr, hm⟩
      exact ⟨d, mem_declarations_cons.mpr (.inr (.inr hd)), hplace, hmethod⟩

/-- **The declarations are in the order of places.** -/
theorem declarations_before {rs : Resources} (h : rs.Ordered) :
    (declarations rs).Pairwise fun a b => a.toPlace.Before b.toPlace := by
  induction rs using Resources.induction with
  | nil => exact List.Pairwise.nil
  | cons key r rest below beside =>
    obtain ⟨hfirst, hmethods, hchildren, hrest⟩ := ordered_cons.mp h
    have hstart : ∀ {rs : Resources}, rs.Ordered → ∀ d ∈ declarations rs,
        ∃ k ks e, d.chain = k :: ks ∧ (k, e) ∈ rs := fun hrs d hd => by
      obtain ⟨⟨r', hr', -⟩, -⟩ := declares_of_mem_declarations hrs hd
      exact Api.find?_eq_some hr'
    rw [declarations_cons, List.pairwise_append, List.pairwise_map, List.pairwise_append]
    refine ⟨⟨?own, ?deeper, ?own_deeper⟩, beside hrest, ?first_rest⟩
    case own =>
      rw [List.pairwise_map]
      exact hmethods.imp fun hlt => Or.inr ⟨rfl, hlt⟩
    case deeper => exact (below hchildren).imp fun hlt => hlt.cons key
    case own_deeper =>
      intro a ha b hb
      obtain ⟨e, -, rfl⟩ := List.mem_map.mp ha
      obtain ⟨k, ks, -, hchain, -⟩ := hstart hchildren b hb
      exact Place.before_below key (by simp [hchain]) _ _
    case first_rest =>
      intro a ha b hb
      obtain ⟨d, -, rfl⟩ := List.mem_map.mp ha
      obtain ⟨k, ks, e, hchain, he⟩ := hstart hrest b hb
      have hbefore := Place.before_of_key_lt (hfirst _ he) d.chain ks d.verb b.verb
      rw [← hchain] at hbefore
      exact hbefore

/-- There are as many declarations as methods. -/
theorem length_declarations (rs : Resources) :
    (declarations rs).length = Resource.methodCountAll rs := by
  induction rs using Resources.induction with
  | nil => rfl
  | cons key r rest below beside =>
    have hcount : Resource.methodCountAll ((key, r) :: rest) =
        r.methods.length + Resource.methodCountAll r.children + Resource.methodCountAll rest := by
      cases r
      rfl
    rw [hcount, ← below, ← beside, declarations_cons]
    simp [Nat.add_assoc]

end Resources

end RouteStubs
