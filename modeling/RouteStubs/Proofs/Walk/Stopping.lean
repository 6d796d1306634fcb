import Mathlib.Data.Set.Card
import RouteStubs.Proofs.Walk.Enumeration
/-!
What a walk delivers before a method without a display name stops it.

`FillsNames` relates two forests that differ in display names only, where one has a name for every method
that has none in the other. `Walk.ofApi_stops_before` compares the walks over two such forests: the one
that is stopped delivers the same endpoints as the other, up to the first method without a name, and that
method is the next endpoint of the other.
-/

namespace RouteStubs

/-! ## §1 Filling in names -/

/-- The second method is the first, with some display name where the first has none. -/
def Method.FillsName (m m' : Method) : Prop :=
  m.displayName ≠ "" ∧ m' = m ∨
    m.displayName = "" ∧ ∃ name, name ≠ "" ∧ m' = { m with displayName := name }

/-- The second forest is the first, with some display name for each method that has none. -/
inductive FillsNames : Resources → Resources → Prop
  | nil : FillsNames [] []
  | cons {key : String} {r r' : Resource} {rest rest' : Resources}
      (methods : List.Forall₂ (fun e e' => e'.1 = e.1 ∧ e.2.FillsName e'.2) r.methods r'.methods)
      (below : FillsNames r.children r'.children)
      (same : r' = { r with methods := r'.methods, children := r'.children })
      (beside : FillsNames rest rest') : FillsNames ((key, r) :: rest) ((key, r') :: rest')

namespace Declaration

/-- The second declaration is the first, with some display name where the first has none. -/
def FillsName (d d' : Declaration) : Prop :=
  d'.toPlace = d.toPlace ∧ d'.parameters = d.parameters ∧ d.method.FillsName d'.method

theorem FillsName.isNamed {d d' : Declaration} (h : d.FillsName d') : d'.isNamed = true := by
  rw [isNamed_iff]
  obtain ⟨-, -, ⟨hname, heq⟩ | ⟨-, name, hname, heq⟩⟩ := h <;> rw [heq] <;> exact hname

theorem FillsName.eq_of_named {d d' : Declaration} (h : d.FillsName d') (hd : d.isNamed = true) :
    d' = d := by
  obtain ⟨hplace, hparameters, ⟨-, hmethod⟩ | ⟨hempty, -⟩⟩ := h
  · obtain ⟨place, method, parameters⟩ := d
    obtain ⟨place', method', parameters'⟩ := d'
    rw [Declaration.mk.injEq]
    exact ⟨hplace, hmethod, hparameters⟩
  · exact absurd hempty (isNamed_iff.mp hd)

/-- A method that stops a walk is named by the verb and path of its endpoint, once it has a name. -/
theorem FillsName.missing_eq {d d' : Declaration} (h : d.FillsName d') :
    d.missing = ⟨d'.endpoint.verb, d'.endpoint.path⟩ := by
  obtain ⟨hplace, -, hmethod⟩ := h
  have hverb : d'.method.verb = d.method.verb := by
    rcases hmethod with ⟨-, heq⟩ | ⟨-, name, -, heq⟩ <;> rw [heq]
  have hchain : d'.chain = d.chain := congrArg Place.chain hplace
  rw [missing, endpoint, hverb, hchain]

theorem FillsName.under {d d' : Declaration} (h : d.FillsName d') (key : String) {r r' : Resource}
    (hr : r'.uriParameters = r.uriParameters) : (d.under key r).FillsName (d'.under key r') := by
  obtain ⟨hplace, hparameters, hmethod⟩ := h
  refine ⟨?_, ?_, hmethod⟩
  · show Place.mk (key :: d'.chain) d'.verb = Place.mk (key :: d.chain) d.verb
    rw [hplace]
  · show Parameter.ofDecls r'.uriParameters ++ d'.parameters =
      Parameter.ofDecls r.uriParameters ++ d.parameters
    rw [hr, hparameters]

end Declaration

/-- Filling in names keeps the declarations, one by one, but for their names. -/
theorem FillsNames.declarations {rs rs' : Resources} (h : FillsNames rs rs') :
    List.Forall₂ Declaration.FillsName (Resources.declarations rs) (Resources.declarations rs') := by
  induction h with
  | nil => exact List.Forall₂.nil
  | @cons key r r' rest rest' methods _ same _ below beside =>
    have hr : r'.uriParameters = r.uriParameters := by rw [same]
    have hown : List.Forall₂ Declaration.FillsName (r.methods.map Declaration.onResource)
        (r'.methods.map Declaration.onResource) := by
      rw [List.forall₂_map_left_iff, List.forall₂_map_right_iff]
      refine methods.imp fun e e' ⟨hverb, hname⟩ => ⟨?_, rfl, hname⟩
      show Place.mk [] e'.1 = Place.mk [] e.1
      rw [hverb]
    rw [Resources.declarations_cons, Resources.declarations_cons]
    refine List.rel_append ?_ beside
    rw [List.forall₂_map_left_iff, List.forall₂_map_right_iff]
    exact (List.rel_append hown below).imp fun d d' hd => hd.under key hr

/-! ## §2 The first method without a name -/

/-- A list with a member that has no name is split at the first such member. -/
theorem Declaration.exists_split {ds : List Declaration} (h : ∃ d ∈ ds, d.isNamed = false) :
    ∃ before d after, ds = before ++ d :: after ∧ (∀ b ∈ before, b.isNamed = true) ∧
      d.isNamed = false := by
  obtain ⟨d, hd, hname⟩ := h
  have hsome : (ds.find? fun d => !d.isNamed).isSome :=
    List.find?_isSome.mpr ⟨d, hd, by simp [hname]⟩
  obtain ⟨first, hfirst⟩ := Option.isSome_iff_exists.mp hsome
  obtain ⟨hname', before, after, hsplit, hbefore⟩ := List.find?_eq_some_iff_append.mp hfirst
  exact ⟨before, first, after, hsplit, fun b hb => by simpa using hbefore b hb, by simpa using hname'⟩

/-- Declarations that have names stay as they are where names are filled in. -/
theorem Declaration.filled_split {before after ds' : List Declaration} {d : Declaration}
    (h : List.Forall₂ FillsName (before ++ d :: after) ds')
    (hbefore : ∀ b ∈ before, b.isNamed = true) :
    ∃ d' after', ds' = before ++ d' :: after' ∧ d.FillsName d' := by
  induction before generalizing ds' with
  | nil =>
    cases h with
    | @cons _ d' _ after' hd _ => exact ⟨d', after', rfl, hd⟩
  | cons b before ih =>
    cases h with
    | @cons _ b' _ rest' hb hrest =>
      obtain ⟨d', after', rfl, hd⟩ := ih hrest fun c hc => hbefore c (List.mem_cons_of_mem _ hc)
      rw [hb.eq_of_named (hbefore b (List.mem_cons_self ..))]
      exact ⟨d', after', rfl, hd⟩

theorem Resources.exists_unnamed_iff {rs : Resources} (h : rs.Ordered) :
    (∃ d ∈ declarations rs, d.isNamed = false) ↔
      ∃ p m, Declares rs p m ∧ m.displayName = "" := by
  have hname : ∀ d : Declaration, d.isNamed = false ↔ d.method.displayName = "" := fun d => by
    simp [Declaration.isNamed]
  constructor
  · rintro ⟨d, hd, hd'⟩
    exact ⟨_, _, (declares_of_mem_declarations h hd).1, (hname d).mp hd'⟩
  · rintro ⟨p, m, hm, hempty⟩
    obtain ⟨d, hd, -, rfl⟩ := exists_mem_declarations hm
    exact ⟨d, hd, (hname d).mpr hempty⟩

/-- The places before that of a declaration are those of the declarations before it. -/
theorem Resources.mem_before_iff {rs : Resources} (h : rs.Ordered) {before after : List Declaration}
    {d : Declaration} (hsplit : declarations rs = before ++ d :: after) (p : Place) :
    ((∃ m, Declares rs p m) ∧ p.Before d.toPlace) ↔ p ∈ before.map Declaration.toPlace := by
  have hsorted := declarations_before h
  rw [hsplit, List.pairwise_append, List.pairwise_cons] at hsorted
  obtain ⟨-, ⟨hafter, -⟩, hbefore⟩ := hsorted
  rw [← mem_places_iff h, hsplit]
  constructor
  · rintro ⟨hmem, hp⟩
    obtain ⟨b, hb, rfl⟩ := List.mem_map.mp hmem
    rcases List.mem_append.mp hb with hb | hb
    · exact List.mem_map_of_mem hb
    · rcases List.mem_cons.mp hb with rfl | hb
      · exact absurd hp (Place.not_before_self _)
      · exact absurd hp (hafter b hb).asymm
  · intro hp
    obtain ⟨b, hb, rfl⟩ := List.mem_map.mp hp
    exact ⟨List.mem_map_of_mem (List.mem_append_left _ hb),
      hbefore b hb d (List.mem_cons_self ..)⟩

/-- There are as many places before that of a declaration as there are declarations before it. -/
theorem Resources.ncard_before {rs : Resources} (h : rs.Ordered) {before after : List Declaration}
    {d : Declaration} (hsplit : declarations rs = before ++ d :: after) :
    {p | (∃ m, Declares rs p m) ∧ p.Before d.toPlace}.ncard = before.length := by
  have hset : {p | (∃ m, Declares rs p m) ∧ p.Before d.toPlace} =
      ((before.map Declaration.toPlace).toFinset : Set Place) := by
    ext p
    simp only [Set.mem_ofPred_eq, mem_before_iff h hsplit, List.coe_toFinset]
  have hnodup : (before.map Declaration.toPlace).Nodup := by
    have hall := declarations_nodup h
    rw [hsplit, List.map_append] at hall
    exact hall.of_append_left
  rw [hset, Set.ncard_coe_finset, List.toFinset_card_of_nodup hnodup, List.length_map]

/-- The method is the first, in the order of places, that has no display name. -/
structure FirstUnnamed (rs : Resources) (p : Place) (m : Method) : Prop where
  declares : Declares rs p m
  unnamed : m.displayName = ""
  named_before : ∀ q n, Declares rs q n → q.Before p → n.displayName ≠ ""

theorem Resources.firstUnnamed_of_split {rs : Resources} (h : rs.Ordered)
    {before after : List Declaration} {d : Declaration}
    (hsplit : declarations rs = before ++ d :: after)
    (hbefore : ∀ b ∈ before, b.isNamed = true) (hd : d.isNamed = false) :
    FirstUnnamed rs d.toPlace d.method := by
  have hmem : ∀ {b}, b ∈ before ++ d :: after → Declares rs b.toPlace b.method := fun hb =>
    (declares_of_mem_declarations h (hsplit ▸ hb)).1
  refine ⟨hmem (by simp), by simpa [Declaration.isNamed] using hd, fun q n hn hq => ?_⟩
  obtain ⟨b, hb, rfl⟩ := List.mem_map.mp ((mem_before_iff h hsplit q).mp ⟨⟨n, hn⟩, hq⟩)
  rw [hn.unique (hmem (List.mem_append_left _ hb))]
  exact Declaration.isNamed_iff.mp (hbefore b hb)

namespace Walk

/-- A walk is stopped exactly if some method has no display name. -/
theorem ofApi_stopped_iff {api : Api} (h : api.resources.Ordered) :
    (ofApi api).stopped ≠ none ↔ ∃ p m, Declares api.resources p m ∧ m.displayName = "" := by
  rw [← Resources.exists_unnamed_iff h, ofApi_eq]
  simp

/-- **A walk stops right before the first method without a name.** It is stopped exactly if there is such
a method. What it has delivered by then is the beginning of what a walk delivers once every name is filled
in, one endpoint for each place before that of the method, and the method is reported by the verb and the
path of the next endpoint. -/
theorem ofApi_stops_before (api : Api) (ordered : api.resources.Ordered) :
    ((ofApi api).stopped ≠ none ↔ ∃ p m, Declares api.resources p m ∧ m.displayName = "") ∧
    ∀ filled : Api, FillsNames api.resources filled.resources →
      (∃ p m, Declares api.resources p m ∧ m.displayName = "") →
      (ofApi filled).stopped = none ∧
      (ofApi api).endpoints <+: (ofApi filled).endpoints ∧
      ∃ p m e, FirstUnnamed api.resources p m ∧
        (ofApi api).endpoints.length = {q | (∃ n, Declares api.resources q n) ∧ q.Before p}.ncard ∧
        (ofApi filled).endpoints[(ofApi api).endpoints.length]? = some e ∧
        (e.verb = m.verb ∧ e.path = String.join p.chain) ∧
        (ofApi api).stopped = some ⟨e.verb, e.path⟩ := by
  refine ⟨ofApi_stopped_iff ordered, fun filled hfilled hunnamed => ?_⟩
  obtain ⟨before, d, after, hsplit, hbefore, hd⟩ :=
    Declaration.exists_split ((Resources.exists_unnamed_iff ordered).mpr hunnamed)
  have hpairs := hfilled.declarations
  have hallNamed : ∀ d' ∈ Resources.declarations filled.resources, d'.isNamed = true := by
    intro d' hd'
    obtain ⟨i, hi, rfl⟩ := List.mem_iff_getElem.mp hd'
    exact (hpairs.get (by rw [hpairs.length_eq]; exact hi) hi).isNamed
  -- the filled forest declares the same up to the first method without a name, and then that method
  obtain ⟨d', after', hsplit', hdd'⟩ := Declaration.filled_split (hsplit ▸ hpairs) hbefore
  have hwalk := ofApi_of_split hsplit hbefore hd
  have hwalk' := ofApi_of_named hallNamed
  rw [hsplit', List.map_append, List.map_cons] at hwalk'
  rw [hwalk, hwalk']
  refine ⟨rfl, List.prefix_append _ _, d.toPlace, d.method, d'.endpoint,
    Resources.firstUnnamed_of_split ordered hsplit hbefore hd, ?count, ?next, ?place, ?report⟩
  case count => rw [Resources.ncard_before ordered hsplit, List.length_map]
  case next => simp
  case place => exact MissingHandlerName.mk.inj hdd'.missing_eq.symm
  case report => exact congrArg some hdd'.missing_eq

end Walk

theorem forkedApi_fillsNames {name : String} (h : name ≠ "") :
    FillsNames (forkedApi "").resources (forkedApi name).resources := by
  refine .cons ?_ (.cons ?_ .nil rfl .nil) rfl (.cons ?_ .nil rfl .nil)
  all_goals simp [Method.FillsName, h]

theorem Walk.ofApi_stops_before_forkedApi :
    ((forkedApi "").resources.Ordered ∧
      FillsNames (forkedApi "").resources (forkedApi "Get b").resources ∧
      ∃ p m, Declares (forkedApi "").resources p m ∧ m.displayName = "") ∧
    (ofApi (forkedApi "Get b")).stopped = none ∧
    (ofApi (forkedApi "")).endpoints <+: (ofApi (forkedApi "Get b")).endpoints ∧
    ∃ p m e, FirstUnnamed (forkedApi "").resources p m ∧
      2 = {q | (∃ n, Declares (forkedApi "").resources q n) ∧ q.Before p}.ncard ∧
      (ofApi (forkedApi "Get b")).endpoints[2]? = some e ∧
      (e.verb = m.verb ∧ e.path = String.join p.chain) ∧
      (ofApi (forkedApi "")).stopped = some ⟨e.verb, e.path⟩ := by
  have hfills : FillsNames (forkedApi "").resources (forkedApi "Get b").resources :=
    forkedApi_fillsNames (by decide)
  have hunnamed : ∃ p m, Declares (forkedApi "").resources p m ∧ m.displayName = "" :=
    ⟨⟨["/a", "/b"], .get⟩, _, ⟨_, rfl, rfl⟩, rfl⟩
  exact ⟨⟨forkedApi_ordered _, hfills, hunnamed⟩,
    (ofApi_stops_before _ (forkedApi_ordered _)).2 _ hfills hunnamed⟩

end RouteStubs
