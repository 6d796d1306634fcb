import RouteStubs.Proofs.Raml.Grammar
/-!
What a value spells is one API, and in that API no parameter is declared twice.

* `SpellsApi.unique` — two APIs that one value spells are the same.
* `declareOnce_of_readApi` — what is read has each name of a parameter once in its place.
-/

namespace RouteStubs.Raml

open Yaml (Value)

/-! ## §1 A value spells one API -/

/-- Where each value reads as one item, one map stores an item for each value. -/
theorem Stores.unique {κ α : Type} [LT κ] [IsStrictTotalOrder κ (· < ·)] {Reads : κ → Value → α → Prop}
    {value? : κ → Option Value} {items items' : List (κ × α)} (h : Stores Reads value? items)
    (h' : Stores Reads value? items')
    (hreads : ∀ key item item' v, (key, item) ∈ items → value? key = some v → Reads key v item' → item = item') :
    items = items' := by
  refine Entries.eq_of_increasing h.keys h'.keys fun ⟨key, item⟩ => ⟨fun hmem => ?_, fun hmem => ?_⟩
  · obtain ⟨v, hv⟩ := (h.stored key).mp ⟨item, hmem⟩
    obtain ⟨item', hmem'⟩ := (h'.stored key).mpr ⟨v, hv⟩
    rwa [hreads key item item' v hmem hv (h'.each key item' v hmem' hv)]
  · obtain ⟨v, hv⟩ := (h'.stored key).mp ⟨item, hmem⟩
    obtain ⟨item', hmem'⟩ := (h.stored key).mpr ⟨v, hv⟩
    rwa [← hreads key item' item v hmem' hv (h'.each key item v hmem hv)]

/-- A value spells one resource. -/
theorem Spells.unique {segment : String} {v : Value} {r r' : Resource} (h : Spells segment v r)
    (h' : Spells segment v r') : r = r' := by
  induction h generalizing r' with
  | null =>
    cases h'
    rfl
  | @mapping segment entries r segment_eq displayName description parameters methods keys stored each ih =>
    obtain _ | ⟨segment_eq', displayName', description', parameters', methods', keys', stored', each'⟩ := h'
    have hmethods : r.methods = r'.methods :=
      methods.unique methods' fun verb m m' v hmem hv hm' => (methods.each verb m v hmem hv).unique hm'
    have hstores : Stores Spells (lastResource entries) r.children := ⟨keys, stored, each⟩
    have hchildren : r.children = r'.children :=
      hstores.unique ⟨keys', stored', each'⟩ fun key child _ v hmem hv hchild' => ih key child v hmem hv hchild'
    have hparameters : r.uriParameters = r'.uriParameters := parameters.unique parameters'
    obtain ⟨_, _, _, _, _, _⟩ := r
    obtain ⟨_, _, _, _, _, _⟩ := r'
    simp_all

/-- A value spells one API. -/
theorem SpellsApi.unique {v : Value} {api api' : Api} (h : SpellsApi v api) (h' : SpellsApi v api') :
    api = api' := by
  obtain ⟨title, version, baseUri, resources⟩ := h
  obtain ⟨title', version', baseUri', resources'⟩ := h'
  have hresources : api.resources = api'.resources :=
    resources.unique resources' fun key r r' v hmem hv hr' => (resources.each key r v hmem hv).unique hr'
  have htitle : api.title = api'.title := Option.some.inj (title.symm.trans title')
  obtain ⟨_, _, _, _⟩ := api
  obtain ⟨_, _, _, _⟩ := api'
  simp_all

/-! ## §2 No parameter is declared twice -/

theorem Spells.declareOnce {segment : String} {v : Value} {r : Resource} (h : Spells segment v r) :
    r.DeclaresOnce ∧ Resources.DeclareOnce r.children := by
  induction h with
  | null => exact ⟨⟨List.nodup_nil, nofun⟩, trivial⟩
  | @mapping _ entries r _ _ _ parameters methods _ stored _ ih =>
    refine ⟨⟨?uriParameters, ?methods⟩, ?children⟩
    case uriParameters => exact parameters.nodup
    case methods =>
      rintro ⟨verb, m⟩ hm
      obtain ⟨v, hv⟩ := (methods.stored verb).mp ⟨m, hm⟩
      exact (methods.each verb m v hm hv).declaresOnce
    case children =>
      refine Resources.every_iff_forall_mem.mpr fun ⟨key, child⟩ hchild => ?_
      obtain ⟨v, hv⟩ := (stored key).mp ⟨child, hchild⟩
      exact ih key child v hchild hv

/-- **In an API that is read no parameter is declared twice.** -/
theorem declareOnce_of_readApi {v : Value} {api : Api} (h : readApi v = .ok api) :
    Resources.DeclareOnce api.resources := by
  obtain ⟨-, -, -, resources⟩ := spellsApi_of_readApi h
  refine Resources.every_iff_forall_mem.mpr fun ⟨key, r⟩ hr => ?_
  obtain ⟨v, hv⟩ := (resources.stored key).mp ⟨r, hr⟩
  exact (resources.each key r v hr hv).declareOnce

end RouteStubs.Raml
