import RouteStubs.Proofs.Raml.Grammar
import RouteStubs.Proofs.Walk.Enumeration
/-!
What is stored under which key in an API that has been built or read.

`Resources.Kept` is the invariant of a forest: at every depth resources are stored under their own segments
and methods under their own verbs, both in increasing order, and every segment is one that is admitted. Each
function that builds a resource or an API keeps it (`Resource.Kept.addMethod`, `Resource.Kept.addChild`,
`Resources.Kept.insert`), and so does reading, one entry after the other (`Resource.Kept.readMember`). What
reading gives admits only segments that start with a slash.

`Api.Built` says what can be built at all, from nothing and from what has been read, and
`Api.Built.stored_under_own_keys` that the invariant holds there and what it means for a walk.
-/

namespace RouteStubs

/-! ## §1 The invariant -/

/-- The methods are kept as a map, each under its own verb. -/
structure KeptMethods (methods : List (Verb × Method)) : Prop where
  increasing : Entries.Increasing methods
  own : ∀ e ∈ methods, e.2.verb = e.1

/-- The forest is kept as maps, at every depth: each resource is stored under its own segment, which is one
that is admitted, and each method under its own verb. -/
inductive Resources.Kept (Admits : String → Prop) : Resources → Prop
  | intro {rs : Resources} (increasing : Entries.Increasing rs) (own : ∀ e ∈ rs, e.2.segment = e.1)
      (admits : ∀ e ∈ rs, Admits e.1) (methods : ∀ e ∈ rs, KeptMethods e.2.methods)
      (below : ∀ e ∈ rs, Kept Admits e.2.children) : Kept Admits rs

/-- The methods of the resource and what is below it are kept under their own keys. -/
structure Resource.Kept (Admits : String → Prop) (r : Resource) : Prop where
  methods : KeptMethods r.methods
  children : Resources.Kept Admits r.children

variable {Admits : String → Prop}

theorem Resources.kept_iff {rs : Resources} :
    Resources.Kept Admits rs ↔
      Entries.Increasing rs ∧ ∀ e ∈ rs, e.2.segment = e.1 ∧ Admits e.1 ∧ e.2.Kept Admits := by
  constructor
  · rintro ⟨increasing, own, admits, methods, below⟩
    exact ⟨increasing, fun e he => ⟨own e he, admits e he, methods e he, below e he⟩⟩
  · rintro ⟨increasing, h⟩
    exact .intro increasing (fun e he => (h e he).1) (fun e he => (h e he).2.1)
      (fun e he => (h e he).2.2.methods) fun e he => (h e he).2.2.children

theorem Resources.kept_nil : Resources.Kept Admits [] :=
  kept_iff.mpr ⟨List.Pairwise.nil, nofun⟩

theorem Resources.Kept.mono {Admits' : String → Prop} (hadmits : ∀ key, Admits key → Admits' key)
    {rs : Resources} (h : rs.Kept Admits) : rs.Kept Admits' := by
  induction h with
  | intro increasing own admits methods _ ih =>
    exact .intro increasing own (fun e he => hadmits _ (admits e he)) methods ih

/-! ## §2 Building -/

/-- A resource that is put under its segment is kept there, in place of the one that was. -/
theorem Resources.Kept.insert {rs : Resources} (h : rs.Kept Admits) {r : Resource} (hr : r.Kept Admits)
    (hsegment : Admits r.segment) : Resources.Kept Admits (Entries.insertSorted r.segment r rs) := by
  obtain ⟨hincreasing, hrs⟩ := kept_iff.mp h
  refine kept_iff.mpr ⟨Entries.increasing_insertSorted _ _ hincreasing, ?_⟩
  rintro ⟨key, r'⟩ he
  rcases (Entries.mem_insertSorted hincreasing).mp he with ⟨rfl, rfl⟩ | ⟨-, hmem⟩
  · exact ⟨rfl, hsegment, hr⟩
  · exact hrs _ hmem

namespace Resource.Kept

theorem empty (segment : String) : (Resource.empty segment).Kept Admits :=
  ⟨⟨List.Pairwise.nil, nofun⟩, Resources.kept_nil⟩

variable {r : Resource}

/-- A method that is declared is kept under its verb, in place of the one that was. -/
theorem addMethod (h : r.Kept Admits) (m : Method) : (r.addMethod m).Kept Admits := by
  obtain ⟨⟨hincreasing, hown⟩, hchildren⟩ := h
  refine ⟨⟨Entries.increasing_insertSorted _ _ hincreasing, ?_⟩, hchildren⟩
  rintro ⟨verb, m'⟩ he
  rcases (Entries.mem_insertSorted hincreasing).mp he with ⟨rfl, rfl⟩ | ⟨-, hmem⟩
  · rfl
  · exact hown _ hmem

theorem addUriParameter (h : r.Kept Admits) (name : String) (decl : ParameterDecl) :
    (r.addUriParameter name decl).Kept Admits := ⟨h.methods, h.children⟩

theorem addChild (h : r.Kept Admits) {child : Resource} (hchild : child.Kept Admits)
    (hsegment : Admits child.segment) : (r.addChild child).Kept Admits :=
  ⟨h.methods, h.children.insert hchild hsegment⟩

end Resource.Kept

/-! ## §3 Reading -/

namespace Raml

open Yaml (Value)

/-- The key starts with a slash, so that the resource under it has a path that does. -/
def StartsWithSlash (key : String) : Prop := key.toList.head? = some '/'

theorem startsWithSlash_iff {key : String} : StartsWithSlash key ↔ isResourceKey key = true := by
  rw [StartsWithSlash, isResourceKey, beq_iff_eq]

/-- One entry of a resource keeps the invariant, if what is read below it does. -/
theorem kept_of_readMember {path : List String} {r r' : Resource} {e : Value × Value}
    (h : r.Kept StartsWithSlash) (hread : readMember path r e = .ok r')
    (hchild : ∀ path segment child, readResource path segment e.2 = .ok child →
      child.segment = segment ∧ child.Kept StartsWithSlash) :
    r'.segment = r.segment ∧ r'.Kept StartsWithSlash := by
  obtain ⟨key, -, hread⟩ := readsMember_of_readMember hread
  cases hread with
  | child hslash hc =>
    obtain ⟨rfl, hkept⟩ := hchild _ _ _ hc
    exact ⟨rfl, h.addChild hkept (startsWithSlash_iff.mpr hslash)⟩
  | method _ => exact ⟨rfl, h.addMethod _⟩
  | unknown _ => exact ⟨rfl, h⟩
  -- names and parameters are not looked at
  | _ => exact ⟨rfl, h.methods, h.children⟩

/-- **What is read as a resource keeps the invariant**, and it has the segment that was given. -/
theorem kept_of_readResource {path : List String} {segment : String} {v : Value} {r : Resource}
    (h : readResource path segment v = .ok r) : r.segment = segment ∧ r.Kept StartsWithSlash := by
  induction v using Value.mapping_induction generalizing path segment r with
  | mapping entries ih =>
    rw [readResource, readMembers_eq] at h
    refine foldlM_invariant (motive := fun _ r => r.segment = segment ∧ r.Kept StartsWithSlash) ?_
      ⟨rfl, .empty segment⟩ h
    rintro _ e r r' he ⟨hsegment, hr⟩ hstep
    obtain ⟨hsame, hkept⟩ := kept_of_readMember hr hstep fun _ _ _ hc => ih e he hc
    exact ⟨hsame.trans hsegment, hkept⟩
  | other v hv =>
    cases v with
    | null =>
      cases h
      exact ⟨rfl, .empty segment⟩
    | mapping entries => exact absurd rfl (hv entries)
    | _ => cases h

theorem kept_of_readTopEntry {api api' : Api} {e : Value × Value}
    (h : api.resources.Kept StartsWithSlash) (hread : readTopEntry api e = .ok api') :
    api'.resources.Kept StartsWithSlash := by
  obtain ⟨key, -, ⟨hslash, r, hr, rfl⟩ | ⟨-, rfl⟩⟩ := readTopEntry_cases hread
  · obtain ⟨rfl, hkept⟩ := kept_of_readResource hr
    exact h.insert hkept (startsWithSlash_iff.mpr hslash)
  · exact h

theorem kept_of_readApi {v : Value} {api : Api} (h : readApi v = .ok api) :
    api.resources.Kept StartsWithSlash := by
  cases v with
  | mapping entries =>
    obtain ⟨title, version, baseUri, -, -, -, htop⟩ := readApi_mapping_eq_ok.mp h
    rw [readTop_eq] at htop
    exact foldlM_invariant (motive := fun _ api => Resources.Kept StartsWithSlash api.resources)
      (fun _ _ _ _ _ hapi hstep => kept_of_readTopEntry hapi hstep) Resources.kept_nil htop
  | _ => cases h

/-- **What is read of a text keeps the invariant**, with segments that start with a slash. -/
theorem kept_of_parse {text : String} {api : Api} (h : parse text = .ok api) :
    api.resources.Kept StartsWithSlash := by
  rw [parse] at h
  split at h
  · cases h
  · split at h
    · cases h
    · split at h
      · cases h
      · next hread =>
        cases h
        exact kept_of_readApi hread

end Raml

/-! ## §4 What can be built -/

mutual

/-- A resource that can be built: from nothing by declaring methods, parameters and resources below, or as
part of something that can be built. -/
inductive Resource.Built : Resource → Prop
  | empty (segment : String) : Resource.Built (.empty segment)
  | addMethod {r : Resource} (h : Resource.Built r) (m : Method) : Resource.Built (r.addMethod m)
  | addUriParameter {r : Resource} (h : Resource.Built r) (name : String) (decl : ParameterDecl) :
    Resource.Built (r.addUriParameter name decl)
  | addChild {r child : Resource} (h : Resource.Built r) (hchild : Resource.Built child) :
    Resource.Built (r.addChild child)
  | child {r child : Resource} {key : String} (h : Resource.Built r) (hmem : (key, child) ∈ r.children) :
    Resource.Built child
  | top {api : Api} {r : Resource} {key : String} (h : Api.Built api) (hmem : (key, r) ∈ api.resources) :
    Resource.Built r

/-- An API that can be built: from nothing or from what has been read, by putting resources at the top. -/
inductive Api.Built : Api → Prop
  | empty (title : String) : Api.Built (.empty title)
  | read {text : String} {api : Api} (h : Raml.parse text = .ok api) : Api.Built api
  | addResource {api : Api} {r : Resource} (h : Api.Built api) (hr : Resource.Built r) :
    Api.Built (api.addResource r)

end

mutual

theorem Resource.Built.kept {r : Resource} : r.Built → r.Kept fun _ => True
  | .empty segment => .empty segment
  | .addMethod h m => h.kept.addMethod m
  | .addUriParameter h name decl => h.kept.addUriParameter name decl
  | .addChild h hchild => h.kept.addChild hchild.kept trivial
  | .child h hmem => ((Resources.kept_iff.mp h.kept.children).2 _ hmem).2.2
  | .top h hmem => ((Resources.kept_iff.mp h.kept).2 _ hmem).2.2

/-- **What can be built keeps the invariant.** -/
theorem Api.Built.kept {api : Api} : api.Built → api.resources.Kept fun _ => True
  | .empty _ => Resources.kept_nil
  | .read h => (Raml.kept_of_parse h).mono fun _ _ => trivial
  | .addResource h hr => h.kept.insert hr.kept trivial

end

/-! ## §5 Walks -/

namespace Resources.Kept

variable {rs : Resources}

theorem ordered (h : rs.Kept Admits) : rs.Ordered := by
  have hevery : Resources.Every (fun r => Entries.Increasing r.methods ∧ Entries.Increasing r.children) rs := by
    induction h with
    | intro _ _ _ methods below ih =>
      exact Resources.every_iff_forall_mem.mpr fun e he =>
        ⟨⟨(methods e he).increasing, (kept_iff.mp (below e he)).1⟩, ih e he⟩
  exact ⟨(kept_iff.mp h).1, hevery⟩

/-- What a chain of keys leads to is kept. -/
theorem find? (h : rs.Kept Admits) {chain : List String} {r : Resource} (hr : Api.find? rs chain = some r) :
    r.Kept Admits := by
  induction chain generalizing rs with
  | nil => simp at hr
  | cons key keys ih =>
    cases keys with
    | nil => exact ((kept_iff.mp h).2 _ (Entries.mem_of_lookup hr)).2.2
    | cons key' keys =>
      rw [Api.find?] at hr
      · obtain ⟨outer, houter, hr⟩ := Option.bind_eq_some_iff.mp hr
        exact ih ((kept_iff.mp h).2 _ (Entries.mem_of_lookup houter)).2.2.children hr
      · simp

/-- A method is declared at the place of its own verb. -/
theorem verb_eq (h : rs.Kept Admits) {p : Place} {m : Method} (hm : Declares rs p m) : m.verb = p.verb := by
  obtain ⟨r, hr, hmethod⟩ := hm
  exact (h.find? hr).methods.own _ (Entries.mem_of_lookup hmethod)

end Resources.Kept

/-- Of two places on one chain of keys, the first has the smaller verb. -/
theorem Place.Before.verb_lt {a b : Place} (h : a.Before b) (hchain : a.chain = b.chain) : a.verb < b.verb := by
  rcases h with h | ⟨-, h⟩
  · rw [hchain] at h
    exact absurd h (List.lex_asymm (fun h => Text.utf8_lt_asymm h) h)
  · exact h

/-- The declarations whose endpoints a walk delivers: those before the first without a name. -/
def Resources.delivered (rs : Resources) : List Declaration := (declarations rs).takeWhile Declaration.isNamed

section
variable {api : Api}

theorem Walk.endpoints_ofApi (api : Api) :
    (ofApi api).endpoints = api.resources.delivered.map Declaration.endpoint := by
  rw [ofApi_eq, Resources.delivered]

theorem Resources.mem_declarations_of_delivered {rs : Resources} {d : Declaration} (hd : d ∈ rs.delivered) :
    d ∈ declarations rs :=
  (List.takeWhile_sublist _).subset hd

/-- What a walk delivers for one resource, stopped or not, comes with increasing verbs. -/
theorem Walk.verbs_increase (h : api.resources.Kept Admits) :
    ∃ places : List Place,
      List.Forall₂ (fun p e => ∃ m, Declares api.resources p m ∧ e.Describes api.resources p m) places
        (ofApi api).endpoints ∧
      (places.zip (ofApi api).endpoints).Pairwise fun a b =>
        a.1.chain = b.1.chain → a.2.verb < b.2.verb := by
  have hdeclares : ∀ d ∈ api.resources.delivered, Declares api.resources d.toPlace d.method := fun d hd =>
    (Resources.declares_of_mem_declarations h.ordered (Resources.mem_declarations_of_delivered hd)).1
  refine ⟨api.resources.delivered.map Declaration.toPlace, ?describes, ?increase⟩
  case describes =>
    rw [endpoints_ofApi, List.forall₂_map_left_iff, List.forall₂_map_right_iff, List.forall₂_same]
    exact fun d hd => ⟨d.method, hdeclares d hd, Declaration.endpoint_describes h.ordered
      (fun _ _ hm => h.verb_eq hm) (Resources.mem_declarations_of_delivered hd)⟩
  case increase =>
    have hbefore : api.resources.delivered.Pairwise fun a b => a.toPlace.Before b.toPlace :=
      (Resources.declarations_before h.ordered).sublist (List.takeWhile_sublist _)
    rw [endpoints_ofApi, List.zip_map', List.pairwise_map]
    refine hbefore.imp_of_mem fun {a b} ha hb hab hchain => ?_
    -- the verb of an endpoint is that of the method, which is stored under it
    show a.method.verb < b.method.verb
    rw [h.verb_eq (hdeclares a ha), h.verb_eq (hdeclares b hb)]
    exact hab.verb_lt hchain

/-- Where every key starts with a slash, so does the path of every endpoint. -/
theorem Walk.startsWithSlash_path (h : api.resources.Kept Raml.StartsWithSlash) {e : Endpoint}
    (he : e ∈ (ofApi api).endpoints) : Raml.StartsWithSlash e.path := by
  rw [endpoints_ofApi] at he
  obtain ⟨d, hd, rfl⟩ := List.mem_map.mp he
  obtain ⟨⟨r, hr, -⟩, -⟩ :=
    Resources.declares_of_mem_declarations h.ordered (Resources.mem_declarations_of_delivered hd)
  obtain ⟨key, keys, r', hchain, hmem⟩ := Api.find?_eq_some hr
  have hkey : key.toList.head? = some '/' := ((Resources.kept_iff.mp h).2 _ hmem).2.1
  have hpath : d.endpoint.path = key ++ String.join keys := by
    show String.join d.chain = _
    rw [hchain, String.join_cons]
  rw [hpath, Raml.StartsWithSlash, String.toList_append, List.head?_append, hkey]
  rfl

end

/-- **Whatever is built or read, resources are stored under their own segments and methods under their own
verbs**, at every depth, and both in increasing order. So the endpoints that a walk delivers for one resource,
which are those on one chain of keys, come with increasing verbs. In an API that has been read, moreover, every
key starts with a slash, and so does the path of every endpoint. -/
theorem Api.Built.stored_under_own_keys {api : Api} (h : api.Built) :
    api.resources.Kept (fun _ => True) ∧
      (∃ places : List Place,
        List.Forall₂ (fun p e => ∃ m, Declares api.resources p m ∧ e.Describes api.resources p m) places
          (Walk.ofApi api).endpoints ∧
        (places.zip (Walk.ofApi api).endpoints).Pairwise fun a b =>
          a.1.chain = b.1.chain → a.2.verb < b.2.verb) ∧
      ∀ text, Raml.parse text = .ok api →
        api.resources.Kept Raml.StartsWithSlash ∧
          ∀ e ∈ (Walk.ofApi api).endpoints, Raml.StartsWithSlash e.path := by
  refine ⟨h.kept, Walk.verbs_increase h.kept, fun text hread => ?_⟩
  have hkept := Raml.kept_of_parse hread
  exact ⟨hkept, fun _ => Walk.startsWithSlash_path hkept⟩

/-- A text with one resource below another. -/
def nestedText : String := "#%RAML 0.8\ntitle: T\n/a:\n  /b:\n    post:\n    get:\n      displayName: B\n"

/-- What is read of it. -/
def nestedApi : Api where
  title := "T"
  resources := [("/a", { segment := "/a", children := [("/b", {
    segment := "/b"
    methods := [(.get, { verb := .get, displayName := "B" }), (.post, { verb := .post })] })] })]

set_option maxRecDepth 20000 in
theorem parse_nestedText : Raml.parse nestedText = .ok nestedApi := by
  have hroot : Yaml.Value.ofText nestedText.toList = .ok (.mapping [(.text "title", .text "T"),
    (.text "/a", .mapping [(.text "/b", .mapping [(.text "post", .null),
      (.text "get", .mapping [(.text "displayName", .text "B")])])])]) := rfl
  exact (Raml.parse_eq_ok (by decide +kernel) hroot).mpr rfl

/-- What has been read, with a part of it put at the top again in place of a resource without a slash. -/
theorem Api.Built.stored_under_own_keys_nestedApi :
    nestedApi.resources.Kept Raml.StartsWithSlash ∧
      ((nestedApi.addResource (.empty "b")).addResource
        ((Resource.empty "b").addChild nestedApi.resources[0].2)).resources.Kept (fun _ => True) := by
  have hread : nestedApi.Built := .read parse_nestedText
  have hpart : nestedApi.resources[0].2.Built := .top hread List.mem_cons_self
  have hbuilt := (hread.addResource (.empty "b")).addResource ((Resource.Built.empty "b").addChild hpart)
  exact ⟨(hread.stored_under_own_keys.2.2 nestedText parse_nestedText).1, hbuilt.stored_under_own_keys.1⟩

end RouteStubs
