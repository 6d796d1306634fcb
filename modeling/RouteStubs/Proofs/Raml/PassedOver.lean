import RouteStubs.Proofs.Raml.Levels
/-!
Entries that are passed over.

At each level some keys are understood (`Level.Understands`), and the value under any other key is not looked
at. `AddsEntry` relates a mapping to the mapping with one more entry of that kind, which may stand at any depth.
`readApi_addsEntry_iff` says that the same API is read then, with one exception: the mapping of a parameter is
refused if there is a tag anywhere in it, and so if there is one in an entry that is passed over
(`parse_tagPassedOver`).
-/

namespace RouteStubs.Raml

open Yaml (Value)

/-! ## §1 Keys that are understood -/

namespace Level

/-- The keys that are understood in a mapping at this level. Every key of a mapping of parameters is the name of
one. -/
def Understands : Level → String → Prop
  | api, key => key = "title" ∨ key = "version" ∨ key = "baseUri" ∨ isResourceKey key = true
  | resource, key => key = "displayName" ∨ key = "description" ∨ key = "uriParameters" ∨
    isResourceKey key = true ∨ ∃ verb : Verb, key = verb.key
  | method, key => key = "displayName" ∨ key = "description" ∨ key = "queryParameters"
  | parameter _, key => key = "displayName" ∨ key = "description" ∨ key = "type" ∨ key = "pattern" ∨
    key = "required"
  | uriParameters, _ => True
  | queryParameters, _ => True
  | leaf, _ => True

/-- The values that a mapping at this level may not have under any key. -/
def Refuses : Level → Value → Prop
  | parameter _, x => hasTag x = true
  | _, _ => False

end Level

/-- The second value is the first, a mapping at the level `inner`, with one more entry: the value `x` under a key
that is not understood. -/
inductive AddsEntry (x : Value) (inner : Level) : Level → Value → Value → Prop
  | intro {key : String} (h : ¬ inner.Understands key) (before after : List (Value × Value)) :
    AddsEntry x inner inner (.mapping (before ++ after)) (.mapping (before ++ (.text key, x) :: after))

/-! ## §2 What is passed over -/

section
variable {key : String} (x : Value)

theorem readTopEntry_of_not_understood (h : ¬ Level.api.Understands key) (api : Api) :
    readTopEntry api (.text key, x) = .ok api := by
  have hresource : isResourceKey key = false := by
    simp only [Level.Understands, not_or, Bool.not_eq_true] at h
    exact h.2.2.2
  have hkey : readKey [] (.text key) = .ok key := rfl
  simp [readTopEntry, hkey, hresource, bind, Except.bind, pure, Except.pure]

theorem readMember_of_not_understood (h : ¬ Level.resource.Understands key) (path : List String) (r : Resource) :
    readMember path r (.text key, x) = .ok r := by
  simp only [Level.Understands, not_or, not_exists] at h
  obtain ⟨hname, hdescription, hparameters, hchild, hverb⟩ := h
  have hkey : readKey path (.text key) = .ok key := rfl
  have hkind : Member.ofKey key = .unknown := by
    rcases Member.ofKey_cases key with ⟨-, h⟩ | ⟨-, h⟩ | ⟨-, h⟩ | ⟨-, h⟩ | ⟨verb, -, h⟩ | ⟨h, -⟩
    · exact absurd h hname
    · exact absurd h hdescription
    · exact absurd h hparameters
    · exact absurd h hchild
    · exact absurd h (hverb verb)
    · exact h
  simp [readMember, hkey, hkind, bind, Except.bind, pure, Except.pure]

theorem readMethodEntry_of_not_understood (h : ¬ Level.method.Understands key) (fields : MethodFields) :
    readMethodEntry fields (.text key, x) = .ok fields := by
  simp only [Level.Understands, not_or] at h
  obtain ⟨hname, hdescription, hparameters⟩ := h
  refine readMethodEntry_eq_ok.mpr ⟨.unknown, ?_, rfl⟩
  rw [MethodEntry.read?_of_text rfl, if_neg hname, if_neg hdescription, if_neg hparameters]

theorem readParameterField?_of_not_understood {required : Bool} (h : ¬ (Level.parameter required).Understands key)
    (fields : ParameterFields) : readParameterField? fields (.text key, x) = some fields := by
  simp only [Level.Understands, not_or] at h
  obtain ⟨hname, hdescription, htype, hpattern, hrequired⟩ := h
  have hfield : fieldOfKey (.text key) = some none := by
    rw [fieldOfKey, ParameterField.ofName?, if_neg hname, if_neg hdescription, if_neg htype, if_neg hpattern,
      if_neg hrequired]
  rw [readParameterField?, ParameterEntry.read?, hfield]
  rfl

/-- A tag in an entry makes the mapping of a parameter one that cannot be read. -/
theorem readParameter_insert_of_hasTag (hx : hasTag x = true) (required : Bool) (k : Value)
    (before after : List (Value × Value)) :
    readParameter required (.mapping (before ++ (k, x) :: after)) = .error .tagInParameter := by
  rw [readParameter_mapping, anyTagIn_eq_any, List.any_append, List.any_cons, hx, Bool.or_true, Bool.true_or,
    Bool.or_true, if_pos rfl]

/-- **A mapping is read as it would be without an entry that is not understood.** -/
theorem Level.agree_insert {level : Level} (h : ¬ level.Understands key) (hx : ¬ level.Refuses x)
    (before after : List (Value × Value)) :
    level.Agree Eq (.mapping (before ++ after)) (.mapping (before ++ (.text key, x) :: after)) := by
  cases level with
  | api =>
    have hfield : ∀ field, key ≠ field →
        readField field (before ++ (.text key, x) :: after) = readField field (before ++ after) :=
      fun field hne => by rw [readField, readField, lookup_insert_of_ne hne]
    have hne := h
    simp only [Level.Understands, not_or] at hne
    obtain ⟨htitle, hversion, hbaseUri, -⟩ := hne
    refine .of_eq (Api.Agrees.refl fun _ => rfl) ?_
    rw [readApi, readApi, hfield _ htitle, hfield _ hversion, hfield _ hbaseUri]
    simp only [readTop_eq, foldlM_insert (readTopEntry_of_not_understood x h)]
  | resource =>
    intro path segment
    refine .of_eq (Resource.Agrees.refl fun _ => rfl) ?_
    rw [readResource, readResource, readMembers_eq, readMembers_eq,
      foldlM_insert (readMember_of_not_understood x h path)]
  | method =>
    intro verb
    refine .of_eq (Method.Agrees.refl fun _ => rfl) ?_
    rw [readMethod_mapping, readMethod_mapping, foldlM_insert (readMethodEntry_of_not_understood x h)]
  | parameter required =>
    have htag : hasTag x = false := by simpa [Level.Refuses] using hx
    refine .of_eq (fun _ => rfl) ?_
    rw [readParameter_mapping, readParameter_mapping, anyTagIn_eq_any, anyTagIn_eq_any, fieldsOfEntries?_eq,
      fieldsOfEntries?_eq, foldlM_insert (readParameterField?_of_not_understood x h), List.any_append,
      List.any_append, List.any_cons, htag]
    rfl
  | uriParameters => exact absurd trivial h
  | queryParameters => exact absurd trivial h
  | leaf => exact absurd trivial h

end

/-! ## §3 At any depth -/

section
variable {x : Value} {inner level : Level} {v v' : Value}

theorem AddsEntry.agree (h : AddsEntry x inner level v v') (hx : ¬ inner.Refuses x) : level.Agree Eq v v' := by
  obtain ⟨hkey, before, after⟩ := h
  exact Level.agree_insert x hkey hx before after

theorem AddsEntry.not_readable (h : AddsEntry x inner level v v') (hx : inner.Refuses x) :
    ¬ level.Readable v' := by
  obtain ⟨hkey, before, after⟩ := h
  cases inner with
  | parameter required =>
    rintro ⟨decl, hdecl⟩
    rw [readParameter_insert_of_hasTag x hx] at hdecl
    cases hdecl
  | _ => exact hx.elim

/-- **An API is read as it would be without an entry that is not understood**, wherever the entry stands and
whatever it holds, but for a tag in the mapping of a parameter: with that nothing is read. -/
theorem readApi_addsEntry_iff {api : Api} (h : Within (AddsEntry x inner) .api v v')
    (hv : readApi v = .ok api) : readApi v' = .ok api ↔ ¬ inner.Refuses x := by
  constructor
  · exact fun hv' hx => h.not_readable (fun _ _ _ hadds => hadds.not_readable hx) ⟨api, hv'⟩
  · intro hx
    have hagree : EndAlike (Api.Agrees Eq) (readApi v) (readApi v') :=
      h.agree (fun _ => rfl) fun _ _ _ hadds => hadds.agree hx
    rw [hv] at hagree
    obtain ⟨api', hv', hsame⟩ := hagree.exists_of_ok
    rw [hv', hsame.eq]

end

/-- The value of a document that declares one parameter, of type `integer` and with further entries. -/
def oneParameter (entries : List (Value × Value)) : Value :=
  .mapping [(.text "title", .text "T"), (.text "/a", .mapping [(.text "uriParameters",
    .mapping [(.text "id", .mapping ((.text "type", .text "integer") :: entries))])])]

theorem addsEntry_oneParameter (x : Value) :
    Within (AddsEntry x (.parameter true)) .api (oneParameter []) (oneParameter [(.text "x", x)]) := by
  have hfield : ¬ (Level.parameter true).Understands "x" := by simp [Level.Understands]
  have hadds := AddsEntry.intro (x := x) hfield [(.text "type", .text "integer")] []
  exact .inside (.inside (.inside (.here hadds) [] []) [] []) [(.text "title", .text "T")] []

/-- An entry in the mapping of a parameter is passed over if there is no tag in it, and only then. -/
theorem readApi_addsEntry_iff_oneParameter :
    ∃ api, readApi (oneParameter []) = .ok api ∧ readApi (oneParameter [(.text "x", .null)]) = .ok api ∧
      readApi (oneParameter [(.text "x", .tagged "include" (.text "f"))]) ≠ .ok api := by
  refine ⟨_, rfl, ?_, ?_⟩
  · exact (readApi_addsEntry_iff (addsEntry_oneParameter .null) rfl).mpr Bool.false_ne_true
  · exact fun h => (readApi_addsEntry_iff (addsEntry_oneParameter _) rfl).mp h rfl

set_option maxRecDepth 20000 in
/-- A text that is read, and that is not once there is a further entry with a tag. -/
theorem parse_tagPassedOver :
    Within (AddsEntry (.tagged "include" (.text "f")) (.parameter true)) .api (oneParameter [])
        (oneParameter [(.text "x", .tagged "include" (.text "f"))]) ∧
      Value.ofText "#%RAML 0.8\ntitle: T\n/a:\n  uriParameters:\n    id:\n      type: integer\n".toList =
        .ok (oneParameter []) ∧
      Value.ofText
          "#%RAML 0.8\ntitle: T\n/a:\n  uriParameters:\n    id:\n      type: integer\n      x: !include f\n".toList =
        .ok (oneParameter [(.text "x", .tagged "include" (.text "f"))]) ∧
      (∃ api, parse "#%RAML 0.8\ntitle: T\n/a:\n  uriParameters:\n    id:\n      type: integer\n" = .ok api) ∧
      ∀ api,
        parse "#%RAML 0.8\ntitle: T\n/a:\n  uriParameters:\n    id:\n      type: integer\n      x: !include f\n" ≠
          .ok api := by
  have hroot : Value.ofText "#%RAML 0.8\ntitle: T\n/a:\n  uriParameters:\n    id:\n      type: integer\n".toList =
      .ok (oneParameter []) := rfl
  have hroot' : Value.ofText
      "#%RAML 0.8\ntitle: T\n/a:\n  uriParameters:\n    id:\n      type: integer\n      x: !include f\n".toList =
      .ok (oneParameter [(.text "x", .tagged "include" (.text "f"))]) := rfl
  refine ⟨addsEntry_oneParameter _, hroot, hroot', ?_, ?_⟩
  · exact ⟨_, (parse_eq_ok (by decide +kernel) hroot).mpr rfl⟩
  · intro api h
    cases (parse_eq_ok (by decide +kernel) hroot').mp h

end RouteStubs.Raml
