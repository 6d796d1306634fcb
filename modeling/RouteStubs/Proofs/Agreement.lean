import Mathlib.Data.List.Forall2
import RouteStubs.Proofs.Resources
/-!
APIs that are the same but for their query parameters.

`Api.Agrees` relates two APIs that have the same resources with the same methods at every depth, where `Same`
says which declarations of query parameters count as the same. With equality it is equality
(`Api.Agrees.eq`); with the order of declarations left out it is what two documents have in common that differ
in order only.
-/

namespace RouteStubs

/-! ## §1 Methods, resources and APIs -/

section
variable (Same : ParameterDecls → ParameterDecls → Prop)

/-- The methods are the same but for their query parameters, and those are the same too in a given sense. -/
structure Method.Agrees (m m' : Method) : Prop where
  same : m' = { m with queryParameters := m'.queryParameters }
  queryParameters : Same m.queryParameters m'.queryParameters

/-- The forests have the same resources under the same keys, with methods that agree. -/
inductive Resources.Agree : Resources → Resources → Prop
  | nil : Agree [] []
  | cons {key : String} {r r' : Resource} {rest rest' : Resources}
      (same : r' = { r with methods := r'.methods, children := r'.children })
      (methods : List.Forall₂ (fun e e' => e.1 = e'.1 ∧ e.2.Agrees Same e'.2) r.methods r'.methods)
      (below : Agree r.children r'.children) (beside : Agree rest rest') :
      Agree ((key, r) :: rest) ((key, r') :: rest')

/-- The resources are the same but for query parameters in them and below them. -/
structure Resource.Agrees (r r' : Resource) : Prop where
  same : r' = { r with methods := r'.methods, children := r'.children }
  methods : List.Forall₂ (fun e e' => e.1 = e'.1 ∧ e.2.Agrees Same e'.2) r.methods r'.methods
  children : Resources.Agree Same r.children r'.children

/-- The APIs are the same but for query parameters. -/
structure Api.Agrees (a a' : Api) : Prop where
  same : a' = { a with resources := a'.resources }
  resources : Resources.Agree Same a.resources a'.resources

end

variable {Same : ParameterDecls → ParameterDecls → Prop}

/-- Forests agree one resource after the other. -/
theorem Resources.agree_iff {rs rs' : Resources} :
    Resources.Agree Same rs rs' ↔ List.Forall₂ (fun e e' => e.1 = e'.1 ∧ e.2.Agrees Same e'.2) rs rs' := by
  constructor
  · intro h
    induction h with
    | nil => exact .nil
    | cons same methods below _ _ ih => exact .cons ⟨rfl, same, methods, below⟩ ih
  · intro h
    induction h with
    | nil => exact .nil
    | @cons e e' rest rest' first _ ih =>
      obtain ⟨key, r⟩ := e
      obtain ⟨key', r'⟩ := e'
      obtain ⟨hkey, hr⟩ := first
      obtain rfl : key = key' := hkey
      exact .cons hr.same hr.methods hr.children ih

/-! ## §2 Equality, reflexivity and transitivity -/

theorem forall₂_entries_eq {κ α : Type} {es es' : List (κ × α)}
    (h : List.Forall₂ (fun e e' => e.1 = e'.1 ∧ e.2 = e'.2) es es') : es = es' := by
  rw [← List.forall₂_eq_eq_eq]
  exact h.imp fun _ _ he => Prod.ext he.1 he.2

theorem Method.Agrees.eq {m m' : Method} (h : m.Agrees Eq m') : m = m' := by
  rw [h.same, ← h.queryParameters]

theorem Resources.Agree.eq {rs rs' : Resources} (h : Resources.Agree Eq rs rs') : rs = rs' := by
  induction h with
  | nil => rfl
  | @cons key r r' rest rest' same methods _ _ below beside =>
    have hmethods := forall₂_entries_eq (methods.imp fun _ _ he => ⟨he.1, he.2.eq⟩)
    have hr : r' = r := by
      rw [same, ← below, ← hmethods]
      cases r
      rfl
    rw [hr, beside]

/-- Where query parameters are the same if they are equal, APIs that agree are equal. -/
theorem Api.Agrees.eq {a a' : Api} (h : a.Agrees Eq a') : a = a' := by
  rw [h.same, ← h.resources.eq]

section
variable (hrefl : ∀ decls, Same decls decls)
include hrefl

theorem Method.Agrees.refl (m : Method) : m.Agrees Same m := ⟨rfl, hrefl _⟩

theorem Resources.Agree.refl (rs : Resources) : Resources.Agree Same rs rs := by
  induction rs using Resources.induction with
  | nil => exact .nil
  | cons key r rest below beside =>
    refine .cons ?_ ?_ below beside
    · cases r
      rfl
    · exact List.forall₂_same.mpr fun e _ => ⟨rfl, .refl hrefl e.2⟩

theorem Resource.Agrees.refl (r : Resource) : r.Agrees Same r := by
  refine ⟨?_, ?_, .refl hrefl _⟩
  · cases r
    rfl
  · exact List.forall₂_same.mpr fun e _ => ⟨rfl, .refl hrefl e.2⟩

theorem Api.Agrees.refl (a : Api) : a.Agrees Same a := ⟨rfl, .refl hrefl _⟩

end

theorem forall₂_entries_trans {κ α : Type} {R : α → α → Prop} (htrans : ∀ a b c, R a b → R b c → R a c)
    {as bs cs : List (κ × α)} (h : List.Forall₂ (fun e e' => e.1 = e'.1 ∧ R e.2 e'.2) as bs)
    (h' : List.Forall₂ (fun e e' => e.1 = e'.1 ∧ R e.2 e'.2) bs cs) :
    List.Forall₂ (fun e e' => e.1 = e'.1 ∧ R e.2 e'.2) as cs := by
  induction h generalizing cs with
  | nil =>
    cases h'
    exact .nil
  | cons first _ ih =>
    cases h' with
    | cons second rest => exact .cons ⟨first.1.trans second.1, htrans _ _ _ first.2 second.2⟩ (ih rest)

section
variable (htrans : ∀ a b c, Same a b → Same b c → Same a c)
include htrans

theorem Method.Agrees.trans {a b c : Method} (h : a.Agrees Same b) (h' : b.Agrees Same c) :
    a.Agrees Same c := by
  refine ⟨?_, htrans _ _ _ h.queryParameters h'.queryParameters⟩
  rw [h'.same, h.same]

theorem Resources.Agree.trans {as bs cs : Resources} (h : Resources.Agree Same as bs)
    (h' : Resources.Agree Same bs cs) : Resources.Agree Same as cs := by
  induction h generalizing cs with
  | nil => exact h'
  | @cons key r r' rest rest' same methods _ _ below beside =>
    cases h' with
    | cons same' methods' below' beside' =>
      refine .cons ?_ (forall₂_entries_trans (R := Method.Agrees Same) (fun _ _ _ => Method.Agrees.trans htrans)
        methods methods')
        (below below') (beside beside')
      rw [same', same]

theorem Api.Agrees.trans {a b c : Api} (h : a.Agrees Same b) (h' : b.Agrees Same c) : a.Agrees Same c := by
  refine ⟨?_, Resources.Agree.trans htrans h.resources h'.resources⟩
  rw [h'.same, h.same]

end

/-! ## §3 Building -/

/-- Setting values that are related keeps entries related. -/
theorem Entries.forall₂_insertSorted {κ α : Type} [DecidableEq κ] [LT κ] [DecidableLT κ] {R : α → α → Prop}
    {es es' : List (κ × α)} (h : List.Forall₂ (fun e e' => e.1 = e'.1 ∧ R e.2 e'.2) es es') (key : κ)
    {v v' : α} (hv : R v v') :
    List.Forall₂ (fun e e' => e.1 = e'.1 ∧ R e.2 e'.2) (Entries.insertSorted key v es)
      (Entries.insertSorted key v' es') := by
  induction h with
  | nil => exact .cons ⟨rfl, hv⟩ .nil
  | @cons e e' rest rest' first hrest ih =>
    obtain ⟨k, w⟩ := e
    obtain ⟨k', w'⟩ := e'
    obtain ⟨hk, hw⟩ := first
    obtain rfl : k = k' := hk
    rw [Entries.insertSorted, Entries.insertSorted]
    split_ifs
    · exact .cons ⟨rfl, hv⟩ hrest
    · exact .cons ⟨rfl, hv⟩ (.cons ⟨rfl, hw⟩ hrest)
    · exact .cons ⟨rfl, hw⟩ ih

theorem Resource.Agrees.addMethod {r r' : Resource} {m m' : Method} (h : r.Agrees Same r')
    (hm : m.Agrees Same m') : (r.addMethod m).Agrees Same (r'.addMethod m') := by
  have hverb : m'.verb = m.verb := by rw [hm.same]
  refine ⟨?_, ?_, h.children⟩
  · rw [Resource.addMethod, Resource.addMethod, h.same]
  · rw [Resource.addMethod, Resource.addMethod, hverb]
    exact Entries.forall₂_insertSorted h.methods m.verb hm

theorem Resource.Agrees.addChildAt {r r' child child' : Resource} (h : r.Agrees Same r') (key : String)
    (hchild : child.Agrees Same child') :
    (r.addChildAt key child).Agrees Same (r'.addChildAt key child') := by
  refine ⟨?_, h.methods, ?_⟩
  · rw [Resource.addChildAt, Resource.addChildAt, h.same]
  · exact Resources.agree_iff.mpr
      (Entries.forall₂_insertSorted (Resources.agree_iff.mp h.children) key hchild)

theorem Api.Agrees.addResourceAt {a a' : Api} {r r' : Resource} (h : a.Agrees Same a') (key : String)
    (hr : r.Agrees Same r') : (a.addResourceAt key r).Agrees Same (a'.addResourceAt key r') := by
  refine ⟨?_, ?_⟩
  · rw [Api.addResourceAt, Api.addResourceAt, h.same]
  · exact Resources.agree_iff.mpr
      (Entries.forall₂_insertSorted (Resources.agree_iff.mp h.resources) key hr)

end RouteStubs
