import RouteStubs.Proofs.Raml.SpelledBodies
/-!
Which values are API descriptions, and what they describe.

`WellFormedApi` is a grammar of values: which keys a mapping may have, and which values the keys that are
understood may hold, at every depth; of the bodies of methods and of parameters it asks that they can be read.
`SpellsApi` relates a value to the API that it spells, entry by entry and down to the fields of every method and
parameter, and does not mention the reading of any. `parse_ok_iff` says that a text whose value is known is read
exactly if the value is well-formed, and that what is read is what the value spells.

Keys are texts, and a tag in front of a key is passed over. `parse_ok_iff` would fail for a grammar that
refuses such keys: `parse_taggedKey` is a text with one.
-/

namespace RouteStubs.Raml

open Yaml (Value)

/-! ## §1 Grammar -/

/-- A text, a number or a boolean. -/
inductive IsScalar : Value → Prop
  | text (s : String) : IsScalar (.text s)
  | number (n : Yaml.Number) : IsScalar (.number n)
  | bool (b : Bool) : IsScalar (.bool b)

section
variable (keyText : Value → Option String)

/-- The value declares a resource: it is nothing, or a mapping whose keys are texts and hold what their
names demand. `keyText` says which values are texts as keys. -/
inductive WellFormedResource : Value → Prop
  | null : WellFormedResource .null
  | mapping {entries : List (Value × Value)}
      (keys : ∀ e ∈ entries, ∃ key, keyText e.1 = some key)
      (displayName : ∀ e ∈ entries, keyText e.1 = some "displayName" → IsScalar e.2)
      (description : ∀ e ∈ entries, keyText e.1 = some "description" → IsScalar e.2)
      (uriParameters : ∀ e ∈ entries, keyText e.1 = some "uriParameters" →
        ∃ decls, readParameters true e.2 = .ok decls)
      (methods : ∀ e ∈ entries, ∀ verb : Verb, keyText e.1 = some verb.key →
        e.2 = .null ∨ ∃ m, readMethod verb e.2 = .ok m)
      (children : ∀ e ∈ entries, ∀ key, keyText e.1 = some key → isResourceKey key = true →
        WellFormedResource e.2) :
      WellFormedResource (.mapping entries)

/-- The value describes an API: a mapping whose keys are texts, with a title, and a resource under every
key that starts with a slash. -/
inductive WellFormedApi : Value → Prop
  | mapping {entries : List (Value × Value)}
      (keys : ∀ e ∈ entries, ∃ key, keyText e.1 = some key)
      (title : ∃ v, Value.lookup "title" entries = some v ∧ IsScalar v)
      (version : ∀ v, Value.lookup "version" entries = some v → IsScalar v)
      (baseUri : ∀ v, Value.lookup "baseUri" entries = some v → IsScalar v)
      (resources : ∀ e ∈ entries, ∀ key, keyText e.1 = some key → isResourceKey key = true →
        WellFormedResource keyText e.2) :
      WellFormedApi (.mapping entries)

end

/-! ## §2 What a value spells -/

/-- The value of the last entry whose key is this text, if the key starts with a slash. -/
def lastResource (entries : List (Value × Value)) (key : String) : Option Value :=
  if isResourceKey key then lastUnder key entries else none

/-- The value of the last entry whose key is that of a verb. -/
def lastMethod (entries : List (Value × Value)) (verb : Verb) : Option Value :=
  lastUnder verb.key entries

/-- The map has one item for each key that has a value, and `Reads` relates the key, the value and the
item. -/
structure Stores {κ α : Type} [LT κ] (Reads : κ → Value → α → Prop) (value? : κ → Option Value)
    (items : List (κ × α)) : Prop where
  keys : Entries.Increasing items
  stored : ∀ key, (∃ item, (key, item) ∈ items) ↔ ∃ v, value? key = some v
  each : ∀ key item v, (key, item) ∈ items → value? key = some v → Reads key v item

/-- The resource has what the entries of the value say, and nothing else. Each field comes from the entry
of its name; there is one method for each key of a verb, spelled by the value there, and one resource below it
for each key that starts with a slash, stored under that key and with it as its segment. -/
inductive Spells : String → Value → Resource → Prop
  | null {segment : String} : Spells segment .null (.empty segment)
  | mapping {segment : String} {entries : List (Value × Value)} {r : Resource}
      (segment_eq : r.segment = segment)
      (displayName : r.displayName = (lastUnder "displayName" entries).bind scalarText?)
      (description : r.description = (lastUnder "description" entries).bind scalarText?)
      (parameters : SpellsParameters true (lastUnder "uriParameters" entries) r.uriParameters)
      (methods : Stores SpellsMethod (lastMethod entries) r.methods)
      (keys : Entries.Increasing r.children)
      (stored : ∀ key, (∃ child, (key, child) ∈ r.children) ↔ ∃ v, lastResource entries key = some v)
      (each : ∀ key child v, (key, child) ∈ r.children → lastResource entries key = some v →
        Spells key v child) :
      Spells segment (.mapping entries) r

/-- The API has what the entries of the value say, and nothing else. -/
inductive SpellsApi : Value → Api → Prop
  | mapping {entries : List (Value × Value)} {api : Api}
      (title : (Value.lookup "title" entries).bind scalarText? = some api.title)
      (version : api.version = (Value.lookup "version" entries).bind scalarText?)
      (baseUri : api.baseUri = (Value.lookup "baseUri" entries).bind scalarText?)
      (resources : Stores Spells (lastResource entries) api.resources) : SpellsApi (.mapping entries) api

/-! ## §3 Scalars and keys -/

theorem isScalar_iff {v : Value} : IsScalar v ↔ ∃ s, scalarText? v = some s := by
  constructor
  · rintro (s | n | b) <;> exact ⟨_, rfl⟩
  · rintro ⟨s, h⟩
    cases v with
    | text s => exact .text s
    | number n => exact .number n
    | bool b => exact .bool b
    | _ => cases h

/-- A further entry gives its text under its own key. -/
theorem lastText_append {entries : List (Value × Value)} {e : Value × Value} {key : String}
    (h : e.1.text? = some key) (field : String) :
    (lastUnder field (entries ++ [e])).bind scalarText? =
      if key = field then scalarText? e.2 else (lastUnder field entries).bind scalarText? := by
  rw [lastUnder_append h]
  by_cases hfield : key = field
  · rw [if_pos hfield, if_pos hfield.symm, Option.bind_some]
  · rw [if_neg hfield, if_neg (Ne.symm hfield)]

/-! ## §4 What one entry adds -/

section
variable {κ α : Type} [LT κ] {Reads : κ → Value → α → Prop} {value? : κ → Option Value}
variable {items : List (κ × α)}

theorem stores_nil : Stores Reads (fun _ => none) [] :=
  ⟨List.Pairwise.nil, fun _ => by simp, fun _ _ _ h => absurd h (by simp)⟩

/-- A map that stores an item for a further value, read from it, stores one for each value again. -/
theorem Stores.insert [DecidableEq κ] [DecidableLT κ] [IsStrictTotalOrder κ (· < ·)]
    (h : Stores Reads value? items) {key : κ} {v : Value} {item : α}
    (hreads : Reads key v item) :
    Stores Reads (fun k => if k = key then some v else value? k)
      (Entries.insertSorted key item items) := by
  refine ⟨Entries.increasing_insertSorted key item h.keys, ?_, ?_⟩
  · intro k
    by_cases hk : k = key
    · simp [Entries.mem_insertSorted h.keys, hk]
    · simp [Entries.mem_insertSorted h.keys, hk, h.stored]
  · intro k i w hmem hw
    rcases (Entries.mem_insertSorted h.keys).mp hmem with ⟨rfl, rfl⟩ | ⟨hk, hmem⟩
    · rw [if_pos rfl] at hw
      obtain rfl : v = w := Option.some.inj hw
      exact hreads
    · rw [if_neg hk] at hw
      exact h.each k i w hmem hw

end

theorem lastMethod_nil : lastMethod [] = fun _ => none := rfl

theorem lastResource_nil : lastResource [] = fun _ => none := by
  funext key
  simp [lastResource, lastUnder_nil]

section
variable {entries : List (Value × Value)} {e : Value × Value} {key : String}

theorem lastMethod_append_verb {verb : Verb} (h : e.1.text? = some verb.key) :
    lastMethod (entries ++ [e]) = fun v => if v = verb then some e.2 else lastMethod entries v := by
  funext v
  rw [lastMethod, lastUnder_append h]
  by_cases hv : v = verb
  · simp [hv]
  · have hkey : ¬ v.key = verb.key := fun heq => hv (Verb.key_injective heq)
    simp [hv, hkey, lastMethod]

theorem lastMethod_append_of_ne (h : e.1.text? = some key) (hne : ∀ verb : Verb, key ≠ verb.key) :
    lastMethod (entries ++ [e]) = lastMethod entries := by
  funext verb
  exact lastUnder_append_of_ne h (hne verb).symm

theorem lastResource_append_resource (h : e.1.text? = some key) (hkey : isResourceKey key = true) :
    lastResource (entries ++ [e]) = fun k => if k = key then some e.2 else lastResource entries k := by
  funext k
  rw [lastResource, lastUnder_append h]
  by_cases hk : k = key
  · simp [hk, hkey]
  · simp [hk, lastResource]

theorem lastResource_append_of_not (h : e.1.text? = some key) (hkey : isResourceKey key = false) :
    lastResource (entries ++ [e]) = lastResource entries := by
  funext k
  rw [lastResource, lastResource]
  split
  case isTrue hk =>
    refine lastUnder_append_of_ne h ?_
    rintro rfl
    rw [hk] at hkey
    cases hkey
  case isFalse => rfl

end

/-! ## §5 What is read is what is spelled -/

theorem Spells.of_stores {segment : String} {entries : List (Value × Value)} {r : Resource}
    (hsegment : r.segment = segment)
    (hname : r.displayName = (lastUnder "displayName" entries).bind scalarText?)
    (hdescription : r.description = (lastUnder "description" entries).bind scalarText?)
    (hparameters : SpellsParameters true (lastUnder "uriParameters" entries) r.uriParameters)
    (hmethods : Stores SpellsMethod (lastMethod entries) r.methods)
    (hchildren : Stores Spells (lastResource entries) r.children) :
    Spells segment (.mapping entries) r :=
  .mapping hsegment hname hdescription hparameters hmethods hchildren.keys hchildren.stored
    hchildren.each

theorem spells_empty (segment : String) : Spells segment (.mapping []) (.empty segment) := by
  refine .of_stores rfl rfl rfl .absent ?_ ?_
  · rw [lastMethod_nil]
    exact stores_nil
  · rw [lastResource_nil]
    exact stores_nil

/-- Where what has been read of a resource is what the entries read so far spell, one more entry keeps it
so: it gives the field of its key, and leaves the others alone. -/
theorem Spells.step {path : List String} {segment : String} {entries : List (Value × Value)}
    {r r' : Resource} {e : Value × Value} (h : Spells segment (.mapping entries) r)
    (hread : readMember path r e = .ok r')
    (hchild : ∀ path segment child, readResource path segment e.2 = .ok child →
      Spells segment e.2 child) : Spells segment (.mapping (entries ++ [e])) r' := by
  obtain ⟨⟩ | ⟨hsegment, hname, hdescription, hparameters, hmethods, hkeys, hstored, heach⟩ := h
  have hchildren : Stores Spells (lastResource entries) r.children := ⟨hkeys, hstored, heach⟩
  obtain ⟨key, hkey, hread⟩ := readsMember_of_readMember hread
  refine .of_stores (hread.segment_eq.trans hsegment) ?displayName ?description ?uriParameters ?methods ?children
  case displayName => rw [hread.displayName_eq, lastText_append hkey, hname]
  case description => rw [hread.description_eq, lastText_append hkey, hdescription]
  case uriParameters =>
    have hgiven := hread.uriParameters_eq
    rw [lastUnder_append hkey]
    by_cases hfield : key = "uriParameters"
    · rw [if_pos hfield] at hgiven
      rw [if_pos hfield.symm]
      exact spellsParameters_of_readParameters hgiven
    · rw [if_neg hfield] at hgiven
      rw [if_neg (Ne.symm hfield), hgiven]
      exact hparameters
  case methods =>
    obtain ⟨verb, m, rfl, hm, heq⟩ | ⟨hnot, heq⟩ := hread.methods_eq <;> rw [heq]
    · rw [lastMethod_append_verb hkey]
      exact hmethods.insert (spellsMethod_of_readMethod hm)
    · rw [lastMethod_append_of_ne hkey hnot]
      exact hmethods
  case children =>
    obtain ⟨hresource, child, hread, heq⟩ | ⟨hnot, heq⟩ := hread.children_eq <;> rw [heq]
    · rw [lastResource_append_resource hkey hresource]
      exact hchildren.insert (hchild _ _ _ hread)
    · rw [lastResource_append_of_not hkey hnot]
      exact hchildren

/-- **What is read of a resource is what its value spells.** -/
theorem spells_of_readResource {path : List String} {segment : String} {v : Value} {r : Resource}
    (h : readResource path segment v = .ok r) : Spells segment v r := by
  induction v using Value.mapping_induction generalizing path segment r with
  | mapping entries ih =>
    rw [readResource, readMembers_eq] at h
    refine foldlM_invariant (motive := fun read r => Spells segment (.mapping read) r) ?_
      (spells_empty segment) h
    intro before e r r' he hbefore hstep
    exact hbefore.step hstep fun _ _ _ hchild => ih e he hchild
  | other v hv =>
    cases v with
    | null =>
      cases h
      exact .null
    | mapping entries => exact absurd rfl (hv entries)
    | _ => cases h

theorem stores_of_readTop {entries : List (Value × Value)} {start api : Api}
    (hstart : start.resources = []) (h : readTop start entries = .ok api) :
    (api.title = start.title ∧ api.version = start.version ∧ api.baseUri = start.baseUri) ∧
      Stores Spells (lastResource entries) api.resources := by
  rw [readTop_eq] at h
  refine foldlM_invariant (motive := fun read api =>
    (api.title = start.title ∧ api.version = start.version ∧ api.baseUri = start.baseUri) ∧
      Stores Spells (lastResource read) api.resources) ?_ ⟨⟨rfl, rfl, rfl⟩, ?_⟩ h
  · intro before e api api' _ hbefore hstep
    obtain ⟨key, hkey, ⟨hresource, r, hr, rfl⟩ | ⟨hnot, rfl⟩⟩ := readTopEntry_cases hstep
    · rw [lastResource_append_resource hkey hresource]
      exact ⟨hbefore.1, hbefore.2.insert (spells_of_readResource hr)⟩
    · rw [lastResource_append_of_not hkey hnot]
      exact hbefore
  · rw [hstart, lastResource_nil]
    exact stores_nil

/-! ## §6 What can be read is what is well-formed -/

/-- **A resource can be read exactly if its value is well-formed**, whatever the way to it is. -/
theorem readResource_isOk_iff {path : List String} {segment : String} {v : Value} :
    (∃ r, readResource path segment v = .ok r) ↔ WellFormedResource Value.text? v := by
  induction v using Value.mapping_induction generalizing path segment with
  | mapping entries ih =>
    have hstep : ∀ r e, (∃ r', readMember path r e = .ok r') ↔
        ∃ key, e.1.text? = some key ∧ Readable path e key := fun _ _ => readMember_isOk_iff
    rw [readResource, readMembers_eq, foldlM_isOk_iff hstep]
    constructor
    · intro h
      have hkey : ∀ e ∈ entries, ∀ key, e.1.text? = some key → Readable path e key := by
        intro e he key hkey
        obtain ⟨key', hkey', hreadable⟩ := h e he
        obtain rfl : key' = key := Option.some.inj (hkey'.symm.trans hkey)
        exact hreadable
      refine .mapping ?keys ?displayName ?description ?uriParameters ?methods ?children
      case keys =>
        intro e he
        obtain ⟨key, hkey, -⟩ := h e he
        exact ⟨key, hkey⟩
      case displayName => exact fun e he hk => isScalar_iff.mpr ((hkey e he _ hk).displayName rfl)
      case description => exact fun e he hk => isScalar_iff.mpr ((hkey e he _ hk).description rfl)
      case uriParameters => exact fun e he hk => (hkey e he _ hk).uriParameters rfl
      case methods => exact fun e he verb hk => .inr ((hkey e he _ hk).method verb rfl)
      case children => exact fun e he key hk hresource => (ih e he).mp ((hkey e he _ hk).child hresource)
    · rintro (_ | ⟨hkeys, hname, hdescription, hparameters, hmethods, hchildren⟩) e he
      obtain ⟨key, hkey⟩ := hkeys e he
      refine ⟨key, hkey, ?displayName, ?description, ?uriParameters, ?child, ?method⟩
      case displayName =>
        rintro rfl
        exact isScalar_iff.mp (hname e he hkey)
      case description =>
        rintro rfl
        exact isScalar_iff.mp (hdescription e he hkey)
      case uriParameters =>
        rintro rfl
        exact hparameters e he hkey
      case child => exact fun hresource => (ih e he).mpr (hchildren e he key hkey hresource)
      case method =>
        rintro verb rfl
        rcases hmethods e he verb hkey with hnull | hm
        · rw [hnull]
          exact ⟨_, rfl⟩
        · exact hm
  | other v hv =>
    cases v with
    | null => exact ⟨fun _ => .null, fun _ => ⟨_, rfl⟩⟩
    | mapping entries => exact absurd rfl (hv entries)
    | _ => exact ⟨nofun, nofun⟩

theorem readTop_isOk_iff {api : Api} {entries : List (Value × Value)} :
    (∃ api', readTop api entries = .ok api') ↔
      (∀ e ∈ entries, ∃ key, e.1.text? = some key) ∧
        ∀ e ∈ entries, ∀ key, e.1.text? = some key → isResourceKey key = true →
          WellFormedResource Value.text? e.2 := by
  have hstep : ∀ api e, (∃ api', readTopEntry api e = .ok api') ↔ ∃ key, e.1.text? = some key ∧
      (isResourceKey key = true → ∃ r, readResource [key] key e.2 = .ok r) :=
    fun _ _ => readTopEntry_isOk_iff
  rw [readTop_eq, foldlM_isOk_iff hstep]
  constructor
  · intro h
    refine ⟨fun e he => ?_, fun e he key hkey hresource => ?_⟩
    · obtain ⟨key, hkey, -⟩ := h e he
      exact ⟨key, hkey⟩
    · obtain ⟨key', hkey', hread⟩ := h e he
      obtain rfl : key' = key := Option.some.inj (hkey'.symm.trans hkey)
      exact readResource_isOk_iff.mp (hread hresource)
  · rintro ⟨hkeys, hresources⟩ e he
    obtain ⟨key, hkey⟩ := hkeys e he
    exact ⟨key, hkey, fun hresource => readResource_isOk_iff.mpr (hresources e he key hkey hresource)⟩

/-- A field at the top is read exactly if it is absent or one that a field may have. -/
theorem readField_eq_ok {field : String} {entries : List (Value × Value)} {s : Option String} :
    readField field entries = .ok s ↔
      (∀ v, Value.lookup field entries = some v → IsScalar v) ∧
        s = (Value.lookup field entries).bind scalarText? := by
  rw [readField]
  cases Value.lookup field entries with
  | none => simp [eq_comm]
  | some v =>
    cases hread : readScalar [] field v with
    | error fault =>
      have hnot : ¬ IsScalar v := by
        rw [isScalar_iff]
        rintro ⟨t, ht⟩
        rw [readScalar_eq_ok.mpr ht] at hread
        cases hread
      simp [Except.map, hread, hnot]
    | ok t =>
      have ht := readScalar_eq_ok.mp hread
      have hscalar : IsScalar v := isScalar_iff.mpr ⟨t, ht⟩
      simp [Except.map, hread, ht, hscalar, eq_comm]

/-- A field at the top that is there and is one that a field may have is read. -/
theorem readField_of_lookup {field : String} {entries : List (Value × Value)} {v : Value}
    (hv : Value.lookup field entries = some v) (hscalar : IsScalar v) :
    ∃ s, readField field entries = .ok (some s) := by
  obtain ⟨s, hs⟩ := isScalar_iff.mp hscalar
  refine ⟨s, readField_eq_ok.mpr ⟨fun w hw => ?_, ?_⟩⟩
  · obtain rfl : v = w := Option.some.inj (hv.symm.trans hw)
    exact hscalar
  · rw [hv, Option.bind_some, hs]

/-- What it takes to read an API, field by field and then entry by entry. -/
theorem readApi_mapping_eq_ok {entries : List (Value × Value)} {api : Api} :
    readApi (.mapping entries) = .ok api ↔
      ∃ title version baseUri, readField "title" entries = .ok (some title) ∧
        readField "version" entries = .ok version ∧ readField "baseUri" entries = .ok baseUri ∧
        readTop { title, version, baseUri } entries = .ok api := by
  rw [readApi]
  constructor
  · intro h
    obtain ⟨title?, htitle, h⟩ := bind_eq_ok.mp h
    cases title? with
    | none => cases h
    | some title =>
      obtain ⟨version, hversion, h⟩ := bind_eq_ok.mp h
      obtain ⟨baseUri, hbaseUri, h⟩ := bind_eq_ok.mp h
      exact ⟨title, version, baseUri, htitle, hversion, hbaseUri, h⟩
  · rintro ⟨title, version, baseUri, htitle, hversion, hbaseUri, h⟩
    exact bind_eq_ok.mpr ⟨some title, htitle, bind_eq_ok.mpr ⟨version, hversion,
      bind_eq_ok.mpr ⟨baseUri, hbaseUri, h⟩⟩⟩

/-- **An API can be read exactly if the value is well-formed.** -/
theorem readApi_isOk_iff {v : Value} :
    (∃ api, readApi v = .ok api) ↔ WellFormedApi Value.text? v := by
  constructor
  · rintro ⟨api, h⟩
    cases v with
    | mapping entries =>
      obtain ⟨title, version, baseUri, htitle, hversion, hbaseUri, h⟩ := readApi_mapping_eq_ok.mp h
      obtain ⟨hkeys, hresources⟩ := readTop_isOk_iff.mp ⟨api, h⟩
      obtain ⟨hscalar, hsome⟩ := readField_eq_ok.mp htitle
      obtain ⟨v, hv, -⟩ := Option.bind_eq_some_iff.mp hsome.symm
      exact .mapping hkeys ⟨v, hv, hscalar v hv⟩ (readField_eq_ok.mp hversion).1
        (readField_eq_ok.mp hbaseUri).1 hresources
    | _ => cases h
  · rintro ⟨hkeys, ⟨v, hv, hscalar⟩, hversion, hbaseUri, hresources⟩
    rename_i entries
    obtain ⟨title, htitleRead⟩ := readField_of_lookup hv hscalar
    have hversionRead := readField_eq_ok.mpr ⟨hversion, rfl⟩
    have hbaseUriRead := readField_eq_ok.mpr ⟨hbaseUri, rfl⟩
    obtain ⟨api, hapi⟩ := readTop_isOk_iff.mpr ⟨hkeys, hresources⟩
    exact ⟨api, readApi_mapping_eq_ok.mpr ⟨_, _, _, htitleRead, hversionRead, hbaseUriRead, hapi⟩⟩

/-- **The API that is read is the one that the value spells.** -/
theorem spellsApi_of_readApi {v : Value} {api : Api} (h : readApi v = .ok api) : SpellsApi v api := by
  cases v with
  | mapping entries =>
    obtain ⟨title, version, baseUri, htitle, hversion, hbaseUri, h⟩ := readApi_mapping_eq_ok.mp h
    obtain ⟨⟨htitle', hversion', hbaseUri'⟩, hresources⟩ := stores_of_readTop rfl h
    refine .mapping ?_ ?_ ?_ hresources
    · rw [htitle']
      exact (readField_eq_ok.mp htitle).2.symm
    · rw [hversion']
      exact (readField_eq_ok.mp hversion).2
    · rw [hbaseUri']
      exact (readField_eq_ok.mp hbaseUri).2
  | _ => cases h

/-! ## §7 Texts -/

theorem parse_eq_ok {text : String} {root : Value} (hheader : hasHeader text.toList = true)
    (hroot : Value.ofText text.toList = .ok root) {api : Api} :
    parse text = .ok api ↔ readApi root = .ok api := by
  rw [parse]
  simp only [hheader, hroot]
  cases readApi root <;> simp

/-- A text whose value is no API fails with its fault, at the place where the way to it is found. -/
theorem parse_eq_error {text : String} {root : Value} {fault : Fault} (hheader : hasHeader text.toList = true)
    (hroot : Value.ofText text.toList = .ok root) (hfault : readApi root = .error fault) :
    parse text = .error (.invalid fault.problem (locate text.toList fault.path)) := by
  rw [parse]
  simp only [hheader, hroot, hfault, Bool.not_true, Bool.false_eq_true, if_false]

/-- **A text with the header whose value is known is read exactly if the value is well-formed, and what is
read is what the value spells.** -/
theorem parse_ok_iff {text : String} {root : Value} (hheader : hasHeader text.toList = true)
    (hroot : Value.ofText text.toList = .ok root) :
    ((∃ api, parse text = .ok api) ↔ WellFormedApi Value.text? root) ∧
      ∀ api, parse text = .ok api → SpellsApi root api := by
  simp only [parse_eq_ok hheader hroot]
  exact ⟨readApi_isOk_iff, fun _ => spellsApi_of_readApi⟩

/-- A text with a method below a resource below a resource, and with parameters of either kind. -/
def fieldsText : String :=
  "#%RAML 0.8\ntitle: T\n/a:\n uriParameters:\n  id: integer\n /b:\n  get:\n   displayName: B\n" ++
    "   description: D\n   queryParameters:\n    p: \x7bpattern: x, required: true\x7d\n"

/-- Its value. -/
def fieldsValue : Value :=
  .mapping [(.text "title", .text "T"), (.text "/a", .mapping [
    (.text "uriParameters", .mapping [(.text "id", .text "integer")]),
    (.text "/b", .mapping [(.text "get", .mapping [(.text "displayName", .text "B"), (.text "description", .text "D"),
      (.text "queryParameters",
        .mapping [(.text "p", .mapping [(.text "pattern", .text "x"), (.text "required", .bool true)])])])])])]

/-- What it describes. -/
def fieldsApi : Api where
  title := "T"
  resources := [("/a", {
    segment := "/a"
    uriParameters := [("id", { type := "integer", required := true })]
    children := [("/b", {
      segment := "/b"
      methods := [(.get, {
        verb := .get, displayName := "B", description := "D"
        queryParameters := [("p", { pattern := some "x", required := true })] })] })] })]

set_option maxRecDepth 20000 in
theorem parse_ok_iff_nested :
    hasHeader fieldsText.toList = true ∧ Value.ofText fieldsText.toList = .ok fieldsValue ∧
      WellFormedApi Value.text? fieldsValue ∧ parse fieldsText = .ok fieldsApi ∧ SpellsApi fieldsValue fieldsApi :=
  have hroot : Value.ofText fieldsText.toList = .ok fieldsValue := rfl
  have hheader : hasHeader fieldsText.toList = true := by decide +kernel
  have hread : parse fieldsText = .ok fieldsApi := (parse_eq_ok hheader hroot).mpr rfl
  ⟨hheader, hroot, (parse_ok_iff hheader hroot).1.mp ⟨_, hread⟩, hread, (parse_ok_iff hheader hroot).2 _ hread⟩

set_option maxRecDepth 20000 in
/-- A text that is read although its value has a key that is no text but a text behind a tag. -/
theorem parse_taggedKey :
    hasHeader "#%RAML 0.8\ntitle: T\n!x foo: 1\n".toList = true ∧
      Value.ofText "#%RAML 0.8\ntitle: T\n!x foo: 1\n".toList =
        .ok (.mapping [(.text "title", .text "T"),
          (.tagged "x" (.text "foo"), .number (.integer 1))]) ∧
      (∃ api, parse "#%RAML 0.8\ntitle: T\n!x foo: 1\n" = .ok api) ∧
      ¬ WellFormedApi bareText? (.mapping [(.text "title", .text "T"),
        (.tagged "x" (.text "foo"), .number (.integer 1))]) := by
  have hheader : hasHeader "#%RAML 0.8\ntitle: T\n!x foo: 1\n".toList = true := by decide +kernel
  have hroot : Value.ofText "#%RAML 0.8\ntitle: T\n!x foo: 1\n".toList =
      .ok (.mapping [(.text "title", .text "T"),
        (.tagged "x" (.text "foo"), .number (.integer 1))]) := rfl
  refine ⟨hheader, hroot, ⟨_, (parse_eq_ok hheader hroot).mpr rfl⟩, ?_⟩
  rintro ⟨hkeys, -⟩
  obtain ⟨key, hkey⟩ := hkeys (.tagged "x" (.text "foo"), .number (.integer 1)) (by simp)
  cases hkey

end RouteStubs.Raml
