import Mathlib.Data.List.Nodup
import Mathlib.Data.String.Basic
import RouteStubs.Proofs.Walk.Declarations
/-!
Resources that are put together by one addition after another, and the walks over them.

An `Addition` declares a method or a URI parameter, or puts a resource below. Each fills a `Slot`, in place of what
filled it before. `Filled` says what a resource holds after any additions, by the additions alone: of those that fill
one slot the last counts (`IsLast`), and parameters stand in the order in which their names were first used. It
holds of a resource that declares nothing, a single addition keeps it (`Filled.add`), and so it holds after any
additions (`filled_ofAdditions`).

`Walk.ofResource_ofAdditions` is what that means for a walk, and that additions which do not get into each other's
way may change places.
-/

namespace RouteStubs

/-! ## §1 Additions -/

/-- Something that is added to a resource. -/
inductive Addition where
  | method (m : Method)
  | uriParameter (name : String) (decl : ParameterDecl)
  | child (r : Resource)

/-- What an addition fills: a resource has room for one method for each verb, one URI parameter of each name and one
resource below it for each segment. -/
inductive Slot where
  | method (verb : Verb)
  | uriParameter (name : String)
  | child (segment : String)
  deriving DecidableEq

namespace Addition

/-- The slot that is filled. -/
def slot : Addition → Slot
  | .method m => .method m.verb
  | .uriParameter name _ => .uriParameter name
  | .child r => .child r.segment

/-- The name of the parameter, if one is declared. -/
def parameterName? : Addition → Option String
  | .uriParameter name _ => some name
  | .method _ | .child _ => none

/-- The addition is the last of those that fill its slot. -/
def IsLast (additions : List Addition) (a : Addition) : Prop :=
  ∃ before after, additions = before ++ a :: after ∧ ∀ b ∈ after, b.slot ≠ a.slot

/-- The names of parameters in the order in which they are first used. -/
def names (additions : List Addition) : List String := (additions.filterMap parameterName?).eraseDups

/-- The additions may change places: they are of different kinds, or they declare methods for different verbs, or they
put resources with different segments below. -/
def Independent : Addition → Addition → Prop
  | .method m, .method n => m.verb ≠ n.verb
  | .uriParameter _ _, .uriParameter _ _ => False
  | .child r, .child s => r.segment ≠ s.segment
  | _, _ => True

theorem IsLast.mem {additions : List Addition} {a : Addition} (h : IsLast additions a) : a ∈ additions := by
  obtain ⟨before, after, rfl, -⟩ := h
  simp

theorem not_isLast_nil (a : Addition) : ¬ IsLast [] a := fun h => List.not_mem_nil h.mem

/-- One addition more is the last that fills its slot; the others stay what they are if they fill another one. -/
theorem isLast_concat {additions : List Addition} {a b : Addition} :
    IsLast (additions ++ [a]) b ↔ b = a ∨ b.slot ≠ a.slot ∧ IsLast additions b := by
  constructor
  · rintro ⟨before, after, h, hafter⟩
    rcases List.eq_nil_or_concat after with rfl | ⟨rest, c, rfl⟩
    · obtain ⟨-, heq⟩ := List.append_inj' h rfl
      exact .inl (List.singleton_inj.mp heq).symm
    · rw [List.concat_eq_append, ← List.cons_append, ← List.append_assoc] at h
      obtain ⟨hadditions, heq⟩ := List.append_inj' h rfl
      obtain rfl : a = c := List.singleton_inj.mp heq
      rw [List.concat_eq_append] at hafter
      refine .inr ⟨fun hslot => hafter a (by simp) hslot.symm, before, rest, hadditions, fun d hd => ?_⟩
      exact hafter d (List.mem_append_left _ hd)
  · rintro (rfl | ⟨hslot, before, after, rfl, hafter⟩)
    · exact ⟨additions, [], rfl, nofun⟩
    · refine ⟨before, after ++ [a], by simp, fun d hd => ?_⟩
      rcases List.mem_append.mp hd with hd | hd
      · exact hafter d hd
      · obtain rfl := List.mem_singleton.mp hd
        exact hslot.symm

theorem isLast_concat_of_ne {additions : List Addition} {a b : Addition} (h : b.slot ≠ a.slot) :
    IsLast (additions ++ [a]) b ↔ IsLast additions b := by
  rw [isLast_concat]
  constructor
  · rintro (rfl | ⟨-, hlast⟩)
    · exact absurd rfl h
    · exact hlast
  · exact fun hlast => .inr ⟨h, hlast⟩

/-- One addition more brings a name only if it declares a parameter, and with a new name. -/
theorem names_concat (additions : List Addition) (a : Addition) :
    names (additions ++ [a]) =
      match a.parameterName? with
      | none => names additions
      | some name => if name ∈ names additions then names additions else names additions ++ [name] := by
  unfold names
  rw [List.filterMap_append]
  cases h : a.parameterName? with
  | none => simp [h]
  | some name =>
    have hsingle : [a].filterMap parameterName? = [name] := by simp [h]
    rw [hsingle, Entries.eraseDups_concat]
    simp only [List.mem_eraseDups]

end Addition

namespace Resource

open Addition

/-- The resource after an addition. -/
def add (r : Resource) : Addition → Resource
  | .method m => r.addMethod m
  | .uriParameter name decl => r.addUriParameter name decl
  | .child c => r.addChild c

/-- A resource that declares nothing, after additions. -/
def ofAdditions (segment : String) (additions : List Addition) : Resource :=
  additions.foldl add (.empty segment)

theorem ofAdditions_concat (segment : String) (additions : List Addition) (a : Addition) :
    ofAdditions segment (additions ++ [a]) = (ofAdditions segment additions).add a := by
  unfold ofAdditions
  rw [List.foldl_append]
  rfl

/-! ## §2 What a resource holds -/

/-- The resource holds what the additions put there and nothing else: in each slot what the last addition put there,
methods in the order of verbs, resources in the order of segments, and parameters in the order in which their names
were first used. -/
structure Filled (additions : List Addition) (r : Resource) : Prop where
  verbs : Entries.Increasing r.methods
  mem_methods : ∀ verb m, (verb, m) ∈ r.methods ↔ verb = m.verb ∧ IsLast additions (.method m)
  names : r.uriParameters.map Prod.fst = names additions
  mem_uriParameters : ∀ name decl, (name, decl) ∈ r.uriParameters ↔ IsLast additions (.uriParameter name decl)
  segments : Entries.Increasing r.children
  mem_children : ∀ key c, (key, c) ∈ r.children ↔ key = c.segment ∧ IsLast additions (.child c)

theorem filled_empty (segment : String) : Filled [] (.empty segment) where
  verbs := List.Pairwise.nil
  mem_methods _ _ := ⟨nofun, fun h => absurd h.2 (not_isLast_nil _)⟩
  names := rfl
  mem_uriParameters _ _ := ⟨nofun, fun h => absurd h (not_isLast_nil _)⟩
  segments := List.Pairwise.nil
  mem_children _ _ := ⟨nofun, fun h => absurd h.2 (not_isLast_nil _)⟩

section
variable {additions : List Addition} {r : Resource}

theorem Filled.nodup_names (h : Filled additions r) : (r.uriParameters.map Prod.fst).Nodup := by
  rw [h.names]
  exact Entries.nodup_eraseDups _

/-- A method that is added takes the place of one with its verb. -/
theorem Filled.addMethod (h : Filled additions r) (n : Method) :
    Filled (additions ++ [.method n]) (r.addMethod n) := by
  refine { h with verbs := ?verbs, mem_methods := ?mem_methods, names := ?names, mem_uriParameters := ?uriParameters,
                  mem_children := ?children }
  case verbs => exact Entries.increasing_insertSorted _ _ h.verbs
  case mem_methods =>
    intro verb m
    show (verb, m) ∈ Entries.insertSorted n.verb n r.methods ↔ _
    rw [Entries.mem_insertSorted h.verbs, h.mem_methods, isLast_concat]
    simp only [Addition.method.injEq, slot, ne_eq, Slot.method.injEq]
    grind
  case names => exact h.names.trans (names_concat additions (.method n)).symm
  case uriParameters =>
    intro name decl
    rw [isLast_concat_of_ne (by simp [slot])]
    exact h.mem_uriParameters name decl
  case children =>
    intro key c
    rw [isLast_concat_of_ne (by simp [slot])]
    exact h.mem_children key c

/-- A declaration that is added takes the place of one of its name, and keeps that place. -/
theorem Filled.addUriParameter (h : Filled additions r) (name : String) (decl : ParameterDecl) :
    Filled (additions ++ [.uriParameter name decl]) (r.addUriParameter name decl) := by
  refine { h with mem_methods := ?methods, names := ?names, mem_uriParameters := ?mem_uriParameters,
                  mem_children := ?children }
  case methods =>
    intro verb m
    rw [isLast_concat_of_ne (by simp [slot])]
    exact h.mem_methods verb m
  case names =>
    show (Entries.put name decl r.uriParameters).map Prod.fst = _
    rw [Entries.map_fst_put, h.names, names_concat]
    rfl
  case mem_uriParameters =>
    intro k d
    show (k, d) ∈ Entries.put name decl r.uriParameters ↔ _
    rw [Entries.mem_put h.nodup_names, h.mem_uriParameters, isLast_concat]
    simp only [Addition.uriParameter.injEq, slot, ne_eq, Slot.uriParameter.injEq]
  case children =>
    intro key c
    rw [isLast_concat_of_ne (by simp [slot])]
    exact h.mem_children key c

/-- A resource that is put below takes the place of one with its segment. -/
theorem Filled.addChild (h : Filled additions r) (s : Resource) :
    Filled (additions ++ [.child s]) (r.addChild s) := by
  refine { h with mem_methods := ?methods, names := ?names, mem_uriParameters := ?uriParameters,
                  segments := ?segments, mem_children := ?mem_children }
  case methods =>
    intro verb m
    rw [isLast_concat_of_ne (by simp [slot])]
    exact h.mem_methods verb m
  case names => exact h.names.trans (names_concat additions (.child s)).symm
  case uriParameters =>
    intro name decl
    rw [isLast_concat_of_ne (by simp [slot])]
    exact h.mem_uriParameters name decl
  case segments => exact Entries.increasing_insertSorted _ _ h.segments
  case mem_children =>
    intro key c
    show (key, c) ∈ Entries.insertSorted s.segment s r.children ↔ _
    rw [Entries.mem_insertSorted h.segments, h.mem_children, isLast_concat]
    simp only [Addition.child.injEq, slot, ne_eq, Slot.child.injEq]
    grind

/-- **One addition more** puts its own into its slot and leaves the other slots as they are. -/
theorem Filled.add (h : Filled additions r) (a : Addition) : Filled (additions ++ [a]) (r.add a) := by
  cases a with
  | method m => exact h.addMethod m
  | uriParameter name decl => exact h.addUriParameter name decl
  | child s => exact h.addChild s

/-- **What a resource holds after additions.** -/
theorem filled_ofAdditions (segment : String) (additions : List Addition) :
    Filled additions (ofAdditions segment additions) := by
  induction additions using List.reverseRecOn with
  | nil => exact filled_empty segment
  | append_singleton additions a ih =>
    rw [ofAdditions_concat]
    exact ih.add a

/-! ## §3 Changing places -/

/-- Two additions that do not get into each other's way may change places. -/
theorem Filled.add_comm (h : Filled additions r) {a b : Addition} (hab : Independent a b) :
    (r.add a).add b = (r.add b).add a := by
  cases a <;> cases b
  case method.method m n =>
    have hverbs := Entries.insertSorted_comm hab.symm n m h.verbs
    exact congrArg (fun methods => { r with methods }) hverbs
  case uriParameter.uriParameter => exact hab.elim
  case child.child s t =>
    have hsegments := Entries.insertSorted_comm hab.symm t s h.segments
    exact congrArg (fun children => { r with children }) hsegments
  all_goals rfl

/-- Changing the places of two additions that stand side by side makes no difference, if they do not get into each
other's way. -/
theorem ofAdditions_swap (segment : String) (front back : List Addition) {a b : Addition}
    (hab : Independent a b) :
    ofAdditions segment (front ++ b :: a :: back) = ofAdditions segment (front ++ a :: b :: back) := by
  have hsplit : ∀ c d, ofAdditions segment (front ++ c :: d :: back) =
      back.foldl Resource.add (((ofAdditions segment front).add c).add d) := fun c d => by
    unfold ofAdditions
    rw [List.foldl_append]
    rfl
  rw [hsplit, hsplit, (filled_ofAdditions segment front).add_comm hab]

end

end Resource

/-! ## §4 Walks -/

/-- Every method at any depth has a display name. -/
def Resources.Named : Resources → Prop := Resources.Every fun r => ∀ e ∈ r.methods, e.2.displayName ≠ ""

/-- Every method of the resource and of those below it has a display name. -/
structure Resource.Named (r : Resource) : Prop where
  methods : ∀ e ∈ r.methods, e.2.displayName ≠ ""
  children : Resources.Named r.children

namespace Walk

variable {path : String} {parameters : List Parameter}

theorem ofMethods_eq_sequence (path : String) (parameters : List Parameter) (methods : List (Verb × Method)) :
    ofMethods path parameters methods = sequence (methods.map fun e => ofMethod path parameters e.2) := by
  induction methods with
  | nil => rfl
  | cons e rest ih => rw [ofMethods, ih, List.map_cons, sequence_cons]

theorem ofResources_eq_sequence (path : String) (parameters : List Parameter) (rs : Resources) :
    ofResources path parameters rs = sequence (rs.map fun e => ofResource (path ++ e.1) parameters e.2) := by
  induction rs with
  | nil => rfl
  | cons e rest ih => rw [ofResources, ih, List.map_cons, sequence_cons]

/-- Walks of which none is stopped deliver what each of them delivers. -/
theorem sequence_of_unstopped {walks : List Walk} (h : ∀ w ∈ walks, w.stopped = none) :
    sequence walks = ⟨walks.flatMap Walk.endpoints, none⟩ := by
  induction walks with
  | nil => rfl
  | cons w walks ih =>
    obtain ⟨hw, hwalks⟩ := List.forall_mem_cons.mp h
    rw [sequence_cons, ih hwalks, andThen, hw, List.flatMap_cons]

theorem ofMethod_of_named {m : Method} (h : m.displayName ≠ "") :
    ofMethod path parameters m =
      ⟨[⟨m.verb, handlerName m.displayName, path, m.description, parameters,
        sortByKey (Parameter.ofDecls m.queryParameters)⟩], none⟩ := by
  unfold ofMethod
  rw [if_neg (by simpa using h)]

theorem stopped_andThen {first second : Walk} (h : first.stopped = none) :
    (first.andThen second).stopped = second.stopped := by
  unfold andThen
  rw [h]

theorem ofMethods_of_named {methods : List (Verb × Method)} (h : ∀ e ∈ methods, e.2.displayName ≠ "") :
    (ofMethods path parameters methods).stopped = none := by
  have hwalks : ∀ w ∈ methods.map fun e => ofMethod path parameters e.2, w.stopped = none := by
    intro w hw
    obtain ⟨e, he, rfl⟩ := List.mem_map.mp hw
    rw [ofMethod_of_named (h e he)]
  rw [ofMethods_eq_sequence, sequence_of_unstopped hwalks]

/-- Where all methods have names, a walk is not stopped. -/
theorem ofResources_of_named {rs : Resources} (h : rs.Named) (path : String) (parameters : List Parameter) :
    (ofResources path parameters rs).stopped = none := by
  induction rs using Resources.induction generalizing path parameters with
  | nil => rfl
  | cons key r rest below beside =>
    obtain ⟨hmethods, hchildren, hrest⟩ := (Resources.every_cons ..).mp h
    rw [ofResources_cons, stopped_andThen, beside hrest]
    rw [stopped_andThen (ofMethods_of_named hmethods), below hchildren]

theorem ofResource_of_named {r : Resource} (h : r.Named) (path : String) (parameters : List Parameter) :
    (ofResource path parameters r).stopped = none := by
  rw [ofResource_eq, stopped_andThen (ofMethods_of_named h.methods), ofResources_of_named h.children]

/-- The walk over a resource visits its methods and then the resources below it. -/
theorem ofResource_eq_sequence (path : String) (inherited : List Parameter) (r : Resource) :
    ofResource path inherited r =
      sequence ((r.methods.map fun e => ofMethod path (inherited ++ Parameter.ofDecls r.uriParameters) e.2) ++
        r.children.map fun e =>
          ofResource (path ++ e.1) (inherited ++ Parameter.ofDecls r.uriParameters) e.2) := by
  rw [ofResource_eq, ofMethods_eq_sequence, ofResources_eq_sequence, sequence_append]

end Walk

namespace Addition

/-- What additions leave behind: the methods that were declared last for their verbs, in the order of verbs; a
declaration for each name, as it was declared last, in the order in which the names were first used; and the
resources that were put last under their segments, in the order of segments. -/
structure Leave (additions : List Addition) (methods : List Method) (decls : ParameterDecls)
    (children : List Resource) : Prop where
  verbs : methods.Pairwise fun m n => m.verb < n.verb
  mem_methods : ∀ m, m ∈ methods ↔ IsLast additions (.method m)
  names : decls.map Prod.fst = names additions
  mem_decls : ∀ name decl, (name, decl) ∈ decls ↔ IsLast additions (.uriParameter name decl)
  segments : children.Pairwise fun c d => Text.utf8 c.segment < Text.utf8 d.segment
  mem_children : ∀ c, c ∈ children ↔ IsLast additions (.child c)

end Addition

namespace Resource

open Addition

variable {additions : List Addition} {r : Resource}

theorem Filled.verb_eq (h : Filled additions r) {e : Verb × Method} (he : e ∈ r.methods) : e.1 = e.2.verb :=
  ((h.mem_methods e.1 e.2).mp he).1

theorem Filled.key_eq (h : Filled additions r) {e : String × Resource} (he : e ∈ r.children) : e.1 = e.2.segment :=
  ((h.mem_children e.1 e.2).mp he).1

/-- What a resource holds is what the additions leave behind. -/
theorem Filled.leave (h : Filled additions r) :
    Leave additions (r.methods.map Prod.snd) r.uriParameters (r.children.map Prod.snd) where
  verbs := by
    rw [List.pairwise_map]
    refine h.verbs.imp_of_mem fun {e f} he hf hlt => ?_
    rwa [← h.verb_eq he, ← h.verb_eq hf]
  mem_methods m := by
    rw [List.mem_map]
    constructor
    · rintro ⟨e, he, rfl⟩
      exact ((h.mem_methods e.1 e.2).mp he).2
    · intro hlast
      exact ⟨(m.verb, m), (h.mem_methods m.verb m).mpr ⟨rfl, hlast⟩, rfl⟩
  names := h.names
  mem_decls := h.mem_uriParameters
  segments := by
    rw [List.pairwise_map]
    refine h.segments.imp_of_mem fun {e f} he hf hlt => ?_
    rw [← h.key_eq he, ← h.key_eq hf]
    exact Text.lt_iff_utf8_lt.mp hlt
  mem_children c := by
    rw [List.mem_map]
    constructor
    · rintro ⟨e, he, rfl⟩
      exact ((h.mem_children e.1 e.2).mp he).2
    · intro hlast
      exact ⟨(c.segment, c), (h.mem_children c.segment c).mpr ⟨rfl, hlast⟩, rfl⟩

/-- The walk over what a resource holds. -/
theorem Filled.walk_eq (h : Filled additions r) (path : String) (inherited : List Parameter) :
    Walk.ofResource path inherited r =
      Walk.sequence (
        (r.methods.map Prod.snd).map (Walk.ofMethod path (inherited ++ Parameter.ofDecls r.uriParameters)) ++
        (r.children.map Prod.snd).map fun c =>
          Walk.ofResource (path ++ c.segment) (inherited ++ Parameter.ofDecls r.uriParameters) c) := by
  rw [Walk.ofResource_eq_sequence, List.map_map, List.map_map]
  congr 2
  refine List.map_congr_left fun e he => ?_
  rw [h.key_eq he]
  rfl

end Resource

namespace Walk

open Addition

/-- Walks over methods and resources that all have names deliver the endpoint of each method, and then what is found
at each resource. -/
theorem sequence_of_named {methods : List Method} {children : List Resource} (path : String)
    (parameters : List Parameter) (hmethods : ∀ m ∈ methods, m.displayName ≠ "") (hchildren : ∀ c ∈ children, c.Named) :
    sequence (methods.map (ofMethod path parameters) ++
        children.map fun c => ofResource (path ++ c.segment) parameters c) =
      ⟨(methods.map fun m => ⟨m.verb, handlerName m.displayName, path, m.description, parameters,
          sortByKey (Parameter.ofDecls m.queryParameters)⟩) ++
        children.flatMap fun c => (ofResource (path ++ c.segment) parameters c).endpoints, none⟩ := by
  have hunstopped : ∀ w ∈ methods.map (ofMethod path parameters) ++
      children.map (fun c => ofResource (path ++ c.segment) parameters c), w.stopped = none := by
    intro w hw
    rcases List.mem_append.mp hw with hw | hw
    · obtain ⟨m, hm, rfl⟩ := List.mem_map.mp hw
      rw [ofMethod_of_named (hmethods m hm)]
    · obtain ⟨c, hc, rfl⟩ := List.mem_map.mp hw
      exact ofResource_of_named (hchildren c hc) _ _
  rw [sequence_of_unstopped hunstopped, List.flatMap_append, List.flatMap_map, List.flatMap_map]
  congr 2
  rw [List.map_eq_flatMap]
  refine List.flatMap_congr fun m hm => ?_
  rw [ofMethod_of_named (hmethods m hm)]

/-- **The walk over a resource that is put together by additions.** At any path and with any parameters inherited, it
visits the methods and resources that the additions leave behind, one after the other, and adds parameters that show
the declarations that they leave behind. Where all methods have a name it delivers the endpoint of each method, and then
what the walk over each resource below delivers. Additions that do not get into each other's way may change places. -/
theorem ofResource_ofAdditions (segment : String) (additions : List Addition) (path : String)
    (inherited : List Parameter) :
    (∃ methods decls children, Leave additions methods decls children ∧
      Parameter.CarryEach decls (Parameter.ofDecls decls) ∧
      (∀ m ∈ methods, Parameter.CarryEach m.queryParameters (Parameter.ofDecls m.queryParameters)) ∧
      let parameters := inherited ++ Parameter.ofDecls decls
      let walk := ofResource path inherited (.ofAdditions segment additions)
      walk = sequence (methods.map (ofMethod path parameters) ++
        children.map fun c => ofResource (path ++ c.segment) parameters c) ∧
      (((∀ m ∈ methods, m.displayName ≠ "") ∧ ∀ c ∈ children, c.Named) →
        walk = ⟨(methods.map fun m => ⟨m.verb, handlerName m.displayName, path, m.description, parameters,
            sortByKey (Parameter.ofDecls m.queryParameters)⟩) ++
          children.flatMap fun c => (ofResource (path ++ c.segment) parameters c).endpoints, none⟩)) ∧
    ∀ front back a b, additions = front ++ a :: b :: back → Independent a b →
      ofResource path inherited (.ofAdditions segment (front ++ b :: a :: back)) =
        ofResource path inherited (.ofAdditions segment additions) := by
  constructor
  · have hfilled := Resource.filled_ofAdditions segment additions
    have hwalk := hfilled.walk_eq path inherited
    refine ⟨_, _, _, hfilled.leave, Parameter.carryEach_ofDecls _, fun m _ => Parameter.carryEach_ofDecls _, hwalk, ?_⟩
    rintro ⟨hmethods, hchildren⟩
    rw [hwalk, sequence_of_named path _ hmethods hchildren]
  · rintro front back a b rfl hab
    rw [Resource.ofAdditions_swap segment front back hab]

/-- A resource below another, with one method. -/
def leaf (segment name : String) : Resource where
  segment := segment
  methods := [(.get, { verb := .get, displayName := name })]

/-- Additions that use verbs, names and segments twice, and out of order. -/
def repeatedAdditions : List Addition :=
  [.child (leaf "/y" "Y"), .uriParameter "b" {}, .method { verb := .post, displayName := "Post" },
    .child (leaf "/x" "Old x"), .method { verb := .get, displayName := "First" }, .uriParameter "a" {},
    .method { verb := .get, displayName := "Second" }, .uriParameter "b" { type := "integer" },
    .child (leaf "/x" "New x")]

theorem leaf_named {segment name : String} (h : name ≠ "") : (leaf segment name).Named := by
  refine ⟨fun e he => ?_, Resources.every_nil _⟩
  rwa [List.mem_singleton.mp he]

theorem ofResource_ofAdditions_repeated :
    (∃ methods decls children, Leave repeatedAdditions methods decls children ∧
      Parameter.CarryEach decls (Parameter.ofDecls decls) ∧
      (∀ m ∈ methods, Parameter.CarryEach m.queryParameters (Parameter.ofDecls m.queryParameters)) ∧
      ((∀ m ∈ methods, m.displayName ≠ "") ∧ ∀ c ∈ children, c.Named) ∧
      ofResource "/r" [] (.ofAdditions "/r" repeatedAdditions) =
        ⟨(methods.map fun m => ⟨m.verb, handlerName m.displayName, "/r", m.description, Parameter.ofDecls decls,
          sortByKey (Parameter.ofDecls m.queryParameters)⟩) ++
        children.flatMap fun c => (ofResource ("/r" ++ c.segment) (Parameter.ofDecls decls) c).endpoints, none⟩) ∧
    ((ofResource "/r" [] (.ofAdditions "/r" repeatedAdditions)).endpoints.map fun e =>
        (e.handler, e.path, e.uriParameters.map fun p => (p.key, p.type))) =
      [("Second", "/r", [("b", "integer"), ("a", "string")]), ("Post", "/r", [("b", "integer"), ("a", "string")]),
        ("NewX", "/r/x", [("b", "integer"), ("a", "string")]),
        ("Y", "/r/y", [("b", "integer"), ("a", "string")])] ∧
    (Independent (.child (leaf "/x" "Old x")) (.method { verb := .get, displayName := "First" }) ∧
      ofResource "/r" [] (.ofAdditions "/r" (repeatedAdditions.take 3 ++
          .method { verb := .get, displayName := "First" } :: .child (leaf "/x" "Old x") ::
            repeatedAdditions.drop 5)) =
        ofResource "/r" [] (.ofAdditions "/r" repeatedAdditions)) := by
  obtain ⟨⟨methods, decls, children, hleave, hcarry, hquery, -, hwalk⟩, hswap⟩ :=
    ofResource_ofAdditions "/r" repeatedAdditions "/r" []
  have hmethods : ∀ m ∈ methods, m.displayName ≠ "" := by
    intro m hm
    have hadded := ((hleave.mem_methods m).mp hm).mem
    simp only [repeatedAdditions, List.mem_cons, reduceCtorEq, Addition.method.injEq, List.not_mem_nil, false_or,
      or_false] at hadded
    rcases hadded with rfl | rfl | rfl <;> decide
  have hchildren : ∀ c ∈ children, c.Named := by
    intro c hc
    have hadded := ((hleave.mem_children c).mp hc).mem
    simp only [repeatedAdditions, List.mem_cons, reduceCtorEq, Addition.child.injEq, List.not_mem_nil, false_or,
      or_false] at hadded
    rcases hadded with rfl | rfl | rfl <;> exact leaf_named (by decide)
  refine ⟨⟨methods, decls, children, hleave, hcarry, hquery, ⟨hmethods, hchildren⟩, hwalk ⟨hmethods, hchildren⟩⟩,
    by decide, trivial, ?_⟩
  exact hswap _ _ _ _ rfl trivial

end Walk

end RouteStubs
