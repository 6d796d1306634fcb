import Mathlib.Data.List.Infix
import RouteStubs.Proofs.Entries
import RouteStubs.Proofs.Text.ByteOrder
import RouteStubs.Endpoint
/-!
Resources side by side, as a forest.

`Resources.fold` and `Resources.induction` are the one recursion and the one induction over a forest:
each step has the first resource, what is below it and what is beside it. `Resources.Ordered` says that
the forest is kept as maps at every level, and `Declares` which methods it declares and at which
`Place`, as looking up a chain of keys and then a verb finds them. `Place.Before` is the order of places.
-/

namespace RouteStubs

/-! ## §1 Recursion and induction -/

section
variable {β : Type} (step : String → Resource → β → β → β) (start : β)

mutual

/-- Folds the resources below a resource. -/
def Resource.foldBelow : Resource → β
  | ⟨_, _, _, _, _, children⟩ => Resources.fold children
termination_by structural r => r

/-- Folds a forest. A step is given a key, its resource, and the results for what is below it and for
what is beside it. -/
def Resources.fold : List (String × Resource) → β
  | [] => start
  | (key, r) :: rest => step key r (Resource.foldBelow r) (Resources.fold rest)
termination_by structural rs => rs

end

@[simp] theorem Resources.fold_nil : Resources.fold step start [] = start := rfl

@[simp] theorem Resources.fold_cons (key : String) (r : Resource) (rest : Resources) :
    Resources.fold step start ((key, r) :: rest) =
      step key r (Resources.fold step start r.children) (Resources.fold step start rest) := by
  cases r
  rfl

end

/-- Induction over a forest: a property of what is below the first resource and of what is beside it
passes on to the whole. -/
theorem Resources.induction {motive : Resources → Prop} (nil : motive [])
    (cons : ∀ key r rest, motive r.children → motive rest → motive ((key, r) :: rest)) :
    ∀ rs, motive rs
  | [] => nil
  | (key, ⟨segment, name, description, methods, parameters, children⟩) :: rest =>
    cons key ⟨segment, name, description, methods, parameters, children⟩ rest
      (induction nil cons children) (induction nil cons rest)

/-! ## §2 Forests as maps -/

/-- Every resource of the forest, at any depth, has a property. -/
def Resources.Every (P : Resource → Prop) : Resources → Prop :=
  Resources.fold (fun _ r below beside => P r ∧ below ∧ beside) True

@[simp] theorem Resources.every_nil (P : Resource → Prop) : Resources.Every P [] := trivial

@[simp] theorem Resources.every_cons (P : Resource → Prop) (key : String) (r : Resource)
    (rest : Resources) :
    Resources.Every P ((key, r) :: rest) ↔
      P r ∧ Resources.Every P r.children ∧ Resources.Every P rest := by
  rw [Resources.Every, Resources.fold_cons]

theorem Resources.every_iff_forall_mem {P : Resource → Prop} {rs : Resources} :
    Resources.Every P rs ↔ ∀ e ∈ rs, P e.2 ∧ Resources.Every P e.2.children := by
  induction rs with
  | nil => simp
  | cons e rest ih =>
    obtain ⟨key, r⟩ := e
    rw [Resources.every_cons, ih, List.forall_mem_cons, and_assoc]

/-- The forest is kept as maps: at every depth the keys of resources side by side increase, and so do the
verbs of the methods of one resource. -/
structure Resources.Ordered (rs : Resources) : Prop where
  keys : Entries.Increasing rs
  below : Resources.Every (fun r => Entries.Increasing r.methods ∧ Entries.Increasing r.children) rs

theorem Resources.ordered_nil : Resources.Ordered [] := ⟨List.Pairwise.nil, every_nil _⟩

theorem Resources.ordered_cons {key : String} {r : Resource} {rest : Resources} :
    Resources.Ordered ((key, r) :: rest) ↔
      (∀ e ∈ rest, key < e.1) ∧ Entries.Increasing r.methods ∧ Resources.Ordered r.children ∧
        Resources.Ordered rest := by
  constructor
  · rintro ⟨hkeys, hbelow⟩
    obtain ⟨hfirst, hrest⟩ := Entries.increasing_cons.mp hkeys
    obtain ⟨⟨hmethods, hchildren⟩, hdeep, hbeside⟩ := (Resources.every_cons ..).mp hbelow
    exact ⟨hfirst, hmethods, ⟨hchildren, hdeep⟩, ⟨hrest, hbeside⟩⟩
  · rintro ⟨hfirst, hmethods, ⟨hchildren, hdeep⟩, ⟨hrest, hbeside⟩⟩
    exact ⟨Entries.increasing_cons.mpr ⟨hfirst, hrest⟩,
      (Resources.every_cons ..).mpr ⟨⟨hmethods, hchildren⟩, hdeep, hbeside⟩⟩

/-- No query parameter of the method is declared twice. -/
def Method.DeclaresOnce (m : Method) : Prop := (m.queryParameters.map Prod.fst).Nodup

/-- No parameter of the resource or of a method of it is declared twice. -/
structure Resource.DeclaresOnce (r : Resource) : Prop where
  uriParameters : (r.uriParameters.map Prod.fst).Nodup
  methods : ∀ e ∈ r.methods, e.2.DeclaresOnce

/-- No parameter is declared twice, at any depth. -/
def Resources.DeclareOnce : Resources → Prop := Resources.Every Resource.DeclaresOnce

/-! ## §3 Chains of keys -/

namespace Api

@[simp] theorem find?_nil (rs : Resources) : find? rs [] = none := by cases rs <;> rfl

theorem find?_cons_self_nil (key : String) (r : Resource) (rest : Resources) :
    find? ((key, r) :: rest) [key] = some r := by
  rw [find?, List.lookup_cons_self]

theorem find?_cons_self (key : String) (r : Resource) (rest : Resources) {chain : List String}
    (h : chain ≠ []) : find? ((key, r) :: rest) (key :: chain) = find? r.children chain := by
  obtain ⟨k, ks, rfl⟩ := List.exists_cons_of_ne_nil h
  rw [find?, List.lookup_cons_self, Option.bind_some]
  simp

theorem find?_cons_of_ne {k key : String} (h : k ≠ key) (r : Resource) (rest : Resources)
    (chain : List String) : find? ((key, r) :: rest) (k :: chain) = find? rest (k :: chain) := by
  have hlookup : List.lookup k ((key, r) :: rest) = List.lookup k rest := by
    rw [List.lookup_cons, beq_false_of_ne h]
  cases chain with
  | nil => rw [find?, find?, hlookup]
  | cons => rw [find?, find?, hlookup] <;> simp

/-- A chain that leads somewhere starts with a key of the forest. -/
theorem find?_eq_some {rs : Resources} {chain : List String} {r : Resource}
    (h : find? rs chain = some r) : ∃ k ks e, chain = k :: ks ∧ (k, e) ∈ rs := by
  match chain with
  | [] => simp at h
  | [k] => exact ⟨k, [], r, rfl, Entries.mem_of_lookup h⟩
  | k :: k' :: ks =>
    rw [find?] at h
    · obtain ⟨e, he, -⟩ := Option.bind_eq_some_iff.mp h
      exact ⟨k, k' :: ks, e, rfl, Entries.mem_of_lookup he⟩
    · simp

end Api

/-- What holds of every resource holds of the one that a chain leads to. -/
theorem Resources.Every.of_find? {P : Resource → Prop} {rs : Resources} (h : Resources.Every P rs)
    {chain : List String} {r : Resource} (hr : Api.find? rs chain = some r) : P r := by
  match chain with
  | [] => simp at hr
  | [k] => exact (every_iff_forall_mem.mp h (k, r) (Entries.mem_of_lookup hr)).1
  | k :: k' :: ks =>
    rw [Api.find?] at hr
    · obtain ⟨e, he, hr⟩ := Option.bind_eq_some_iff.mp hr
      exact of_find? (every_iff_forall_mem.mp h (k, e) (Entries.mem_of_lookup he)).2 hr
    · simp

/-- The resources on a chain of keys, the outermost first. -/
def Resources.along (rs : Resources) (chain : List String) : List Resource :=
  chain.inits.filterMap (Api.find? rs)

namespace Resources

@[simp] theorem along_nil (rs : Resources) : along rs [] = [] := by simp [along]

theorem along_cons_self (key : String) (r : Resource) (rest : Resources) (chain : List String) :
    along ((key, r) :: rest) (key :: chain) = r :: along r.children chain := by
  cases chain with
  | nil => simp [along, Api.find?_cons_self_nil]
  | cons k ks =>
    have hdeeper : ∀ c : List String,
        Api.find? ((key, r) :: rest) (key :: k :: c) = Api.find? r.children (k :: c) :=
      fun c => Api.find?_cons_self key r rest (by simp)
    simp [along, List.filterMap_map, Function.comp_def, Api.find?_cons_self_nil, hdeeper]

theorem along_cons_of_ne {k key : String} (h : k ≠ key) (r : Resource) (rest : Resources)
    (chain : List String) : along ((key, r) :: rest) (k :: chain) = along rest (k :: chain) := by
  simp [along, List.filterMap_map, Api.find?_cons_of_ne h]

/-- The parameters that the resources on a chain of keys declare, those of the outermost first. -/
def parametersAlong (rs : Resources) (chain : List String) : List Parameter :=
  (along rs chain).flatMap fun r => Parameter.ofDecls r.uriParameters

end Resources

/-! ## §4 Places -/

/-- Where a method is declared: a chain of keys that leads to a resource, and a verb. -/
structure Place where
  chain : List String
  verb : Verb
  deriving DecidableEq, Repr

/-- The forest declares a method at a place: the chain leads to a resource that has it for the verb. -/
def Declares (rs : Resources) (p : Place) (m : Method) : Prop :=
  ∃ r, Api.find? rs p.chain = some r ∧ r.method? p.verb = some m

/-- At most one method is declared at a place. -/
theorem Declares.unique {rs : Resources} {p : Place} {m n : Method} (hm : Declares rs p m)
    (hn : Declares rs p n) : m = n := by
  obtain ⟨r, hr, hm⟩ := hm
  obtain ⟨r', hr', hn⟩ := hn
  obtain rfl : r = r' := Option.some.inj (hr.symm.trans hr')
  exact Option.some.inj (hm.symm.trans hn)

theorem Verb.lt_irrefl (v : Verb) : ¬ v < v := Nat.lt_irrefl v.rank

theorem Verb.lt_asymm {v w : Verb} (h : v < w) : ¬ w < v := fun h' => Nat.lt_asymm h h'

theorem Verb.rank_injective {v w : Verb} (h : v.rank = w.rank) : v = w := by
  cases v <;> cases w <;> first | rfl | cases h

instance : IsStrictTotalOrder Verb (· < ·) where
  trichotomous _ _ hlt hgt := Verb.rank_injective (Nat.le_antisymm (Nat.not_lt.mp hgt) (Nat.not_lt.mp hlt))
  irrefl := Verb.lt_irrefl
  trans _ _ _ := Nat.lt_trans

namespace Place

/-- The order of places. Chains are compared key by key, by the bytes of the keys and with a proper
beginning first, and places on one chain by their verbs. -/
def Before (a b : Place) : Prop :=
  List.Lex (fun k l => Text.utf8 k < Text.utf8 l) a.chain b.chain ∨
    a.chain = b.chain ∧ a.verb < b.verb

theorem Before.asymm {a b : Place} (h : a.Before b) : ¬ b.Before a := by
  have hchain : ∀ {c d : List String}, List.Lex (fun k l => Text.utf8 k < Text.utf8 l) c d →
      ¬ List.Lex (fun k l => Text.utf8 k < Text.utf8 l) d c :=
    fun hcd hdc => List.lex_asymm (fun h => Text.utf8_lt_asymm h) hcd hdc
  rintro (h' | ⟨heq', h'⟩) <;> rcases h with h | ⟨heq, h⟩
  · exact hchain h h'
  · exact hchain h' (heq ▸ h')
  · exact hchain h (heq' ▸ h)
  · exact Verb.lt_asymm h h'

theorem not_before_self (a : Place) : ¬ a.Before a := fun h => h.asymm h

theorem before_of_key_lt {k l : String} (h : k < l) (c d : List String) (v w : Verb) :
    Before ⟨k :: c, v⟩ ⟨l :: d, w⟩ :=
  Or.inl (List.Lex.rel (Text.lt_iff_utf8_lt.mp h))

theorem before_below (k : String) {d : List String} (h : d ≠ []) (v w : Verb) :
    Before ⟨[k], v⟩ ⟨k :: d, w⟩ := by
  obtain ⟨l, ls, rfl⟩ := List.exists_cons_of_ne_nil h
  exact Or.inl (List.Lex.cons List.Lex.nil)

theorem Before.cons {c d : List String} {v w : Verb} (h : Before ⟨c, v⟩ ⟨d, w⟩) (k : String) :
    Before ⟨k :: c, v⟩ ⟨k :: d, w⟩ := by
  rcases h with h | ⟨heq, h⟩
  · exact Or.inl (List.Lex.cons h)
  · exact Or.inr ⟨congrArg (k :: ·) heq, h⟩

end Place

end RouteStubs
