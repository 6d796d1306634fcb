import Mathlib.Data.List.Forall2
import RouteStubs.Proofs.Raml.Members
/-!
Runs that can fail, side by side.

`EndAlike` relates two results if both have failed, or if neither has and what they give is related. Runs over
entries that are related end alike (`EndAlike.foldlM`), and so do runs over the same entries in another order if
two steps come to the same in either (`foldlM_perm`). A step that does nothing can be left out
(`foldlM_insert`), and a run that stores one item after the other stores them all (`foldlM_map_eq_ok`).
-/

namespace RouteStubs.Raml

/-! ## §1 Results that are alike -/

/-- Both have failed, or neither has and the results are related. -/
inductive EndAlike {ε α : Type} (R : α → α → Prop) : Except ε α → Except ε α → Prop
  | error (cause cause' : ε) : EndAlike R (.error cause) (.error cause')
  | ok {a a' : α} (h : R a a') : EndAlike R (.ok a) (.ok a')

section
variable {ε α β σ : Type} {R : α → α → Prop} {S : β → β → Prop}

namespace EndAlike

theorem refl (h : ∀ a, R a a) (x : Except ε α) : EndAlike R x x := by
  cases x with
  | error cause => exact .error cause cause
  | ok a => exact .ok (h a)

theorem of_eq (h : ∀ a, R a a) {x y : Except ε α} (heq : x = y) : EndAlike R x y :=
  heq ▸ refl h x

theorem trans (h : ∀ a b c, R a b → R b c → R a c) {x y z : Except ε α} (hxy : EndAlike R x y)
    (hyz : EndAlike R y z) : EndAlike R x z := by
  cases hxy with
  | error cause _ => cases hyz with
    | error _ cause' => exact .error cause cause'
  | ok hab => cases hyz with
    | ok hbc => exact .ok (h _ _ _ hab hbc)

theorem symm (h : ∀ a b, R a b → R b a) {x y : Except ε α} (hxy : EndAlike R x y) : EndAlike R y x := by
  cases hxy with
  | error cause cause' => exact .error cause' cause
  | ok hab => exact .ok (h _ _ hab)

theorem mono {R' : α → α → Prop} (h : ∀ a a', R a a' → R' a a') {x x' : Except ε α}
    (hx : EndAlike R x x') : EndAlike R' x x' := by
  cases hx with
  | error cause cause' => exact .error cause cause'
  | ok hab => exact .ok (h _ _ hab)

theorem map {x x' : Except ε α} {f f' : α → β} (hx : EndAlike R x x')
    (hf : ∀ a a', R a a' → S (f a) (f' a')) : EndAlike S (x.map f) (x'.map f') := by
  cases hx with
  | error cause cause' => exact .error cause cause'
  | ok h => exact .ok (hf _ _ h)

theorem bind {x x' : Except ε α} {f f' : α → Except ε β} (hx : EndAlike R x x')
    (hf : ∀ a a', R a a' → EndAlike S (f a) (f' a')) : EndAlike S (x >>= f) (x' >>= f') := by
  cases hx with
  | error cause cause' => exact .error cause cause'
  | ok h => exact hf _ _ h

theorem exists_of_ok {a : α} {x : Except ε α} (h : EndAlike R (.ok a) x) : ∃ a', x = .ok a' ∧ R a a' := by
  cases h with
  | ok h => exact ⟨_, rfl, h⟩

/-- Two results are alike if one succeeds exactly if the other does, and results are related. -/
theorem of_isOk_iff {x x' : Except ε α} (hiff : (∃ a, x = .ok a) ↔ ∃ a', x' = .ok a')
    (hrel : ∀ a a', x = .ok a → x' = .ok a' → R a a') : EndAlike R x x' := by
  cases x with
  | error cause => cases x' with
    | error cause' => exact .error cause cause'
    | ok a' =>
      obtain ⟨a, ha⟩ := hiff.mpr ⟨a', rfl⟩
      cases ha
  | ok a =>
    obtain ⟨a', rfl⟩ := hiff.mp ⟨a, rfl⟩
    exact .ok (hrel a a' rfl rfl)

/-- Runs whose steps are alike on states that are related are alike. -/
theorem foldlM {step : σ → β → Except ε σ} {R : σ → σ → Prop} {E : β → β → Prop} {es es' : List β}
    (hes : List.Forall₂ E es es') {s s' : σ} (hs : R s s')
    (hstep : ∀ s s' e e', R s s' → E e e' → EndAlike R (step s e) (step s' e')) :
    EndAlike R (es.foldlM step s) (es'.foldlM step s') := by
  induction hes generalizing s s' with
  | nil => exact .ok hs
  | cons he _ ih =>
    rw [List.foldlM_cons, List.foldlM_cons]
    exact (hstep _ _ _ _ hs he).bind fun _ _ h => ih h

end EndAlike

/-! ## §2 Steps of a run -/

/-- In a run that does not fail, no step does. -/
theorem exists_step_of_foldlM_ok {step : σ → α → Except ε σ} {as : List α} {s s' : σ}
    (h : as.foldlM step s = .ok s') {a : α} (ha : a ∈ as) : ∃ s₁ s₂, step s₁ a = .ok s₂ := by
  induction as generalizing s with
  | nil => cases ha
  | cons b rest ih =>
    rw [List.foldlM_cons] at h
    obtain ⟨s₁, hfirst, hrest⟩ := bind_eq_ok.mp h
    rcases List.mem_cons.mp ha with rfl | ha
    · exact ⟨s, s₁, hfirst⟩
    · exact ih hrest ha

/-- A run is the same without a step that does nothing. -/
theorem foldlM_insert {m : Type → Type} [Monad m] [LawfulMonad m] {step : σ → α → m σ} {a : α}
    (h : ∀ s, step s a = pure s) (before after : List α) (s : σ) :
    (before ++ a :: after).foldlM step s = (before ++ after).foldlM step s := by
  rw [List.foldlM_append, List.foldlM_append]
  congr 1
  funext s
  rw [List.foldlM_cons, h, pure_bind]

/-- Where each item is stored behind those before it once it is read, all of them are stored. -/
theorem foldlM_map_eq_ok {step : σ → β → Except ε σ} {spell : α → β} {s : List α → σ}
    {items : List α} (h : ∀ before item after, items = before ++ item :: after →
      step (s before) (spell item) = .ok (s (before ++ [item]))) :
    (items.map spell).foldlM step (s []) = .ok (s items) := by
  have hfrom : ∀ rest before, items = before ++ rest →
      (rest.map spell).foldlM step (s before) = .ok (s items) := by
    intro rest
    induction rest with
    | nil =>
      intro before heq
      rw [heq, List.append_nil]
      rfl
    | cons item rest ih =>
      intro before heq
      rw [List.map_cons, List.foldlM_cons]
      exact bind_eq_ok.mpr ⟨_, h before item rest heq, ih (before ++ [item]) (by simp [heq])⟩
  exact hfrom items [] rfl

/-! ## §3 The order of steps -/

theorem toOption_eq_some {x : Except ε α} {a : α} : x.toOption = some a ↔ x = .ok a := by
  cases x <;> simp [Except.toOption]

theorem EndAlike.of_toOption_eq {x y : Except ε α} (h : x.toOption = y.toOption) : EndAlike Eq x y := by
  cases x with
  | error cause => cases y with
    | error cause' => exact .error cause cause'
    | ok b => cases h
  | ok a => cases y with
    | error cause => cases h
    | ok b => exact .ok (Option.some.inj h)

/-- A run comes to the same in any order if two steps do in either. -/
theorem foldlM_perm {step : σ → α → Option σ}
    (hcomm : ∀ s a b, ((step s a).bind fun t => step t b) = (step s b).bind fun t => step t a)
    {as bs : List α} (h : as.Perm bs) (s : σ) : as.foldlM step s = bs.foldlM step s := by
  induction h generalizing s with
  | nil => rfl
  | cons a _ ih =>
    rw [List.foldlM_cons, List.foldlM_cons]
    exact congrArg _ (funext ih)
  | swap a b rest =>
    rw [List.foldlM_cons, List.foldlM_cons]
    simp only [List.foldlM_cons, ← bind_assoc]
    exact congrArg (· >>= fun t => rest.foldlM step t) (hcomm s b a)
  | trans _ _ ih ih' => rw [ih, ih']

theorem toOption_foldlM (step : σ → α → Except ε σ) (as : List α) (s : σ) :
    (as.foldlM step s).toOption = as.foldlM (fun s a => (step s a).toOption) s := by
  induction as generalizing s with
  | nil => rfl
  | cons a rest ih =>
    rw [List.foldlM_cons, List.foldlM_cons]
    cases step s a with
    | error cause => rfl
    | ok t => exact ih t

/-- Where what is given may be given in either order, entries may be read in either. -/
theorem bind_give_comm {γ : Type} {read? : α → Option γ} {give? : σ → γ → Option σ}
    (hcomm : ∀ s c d, ((give? s c).bind fun t => give? t d) = (give? s d).bind fun t => give? t c) (s : σ)
    (a b : α) :
    (((read? a).bind (give? s)).bind fun t => (read? b).bind (give? t)) =
      ((read? b).bind (give? s)).bind fun t => (read? a).bind (give? t) := by
  cases read? a with
  | none => cases h : (read? b).bind (give? s) <;> rfl
  | some c => cases read? b with
    | none => cases h : give? s c <;> simp [h]
    | some d => exact hcomm s c d

end

end RouteStubs.Raml
