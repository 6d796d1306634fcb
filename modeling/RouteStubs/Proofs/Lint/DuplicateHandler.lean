import Mathlib.Data.List.Nodup
import RouteStubs.Lint
import RouteStubs.Proofs.Source.ReadBack
/-!
Warnings about handlers that endpoints share, and the functions of the generated file.

The lint looks at all endpoints, and a file has stubs for those whose handler can be the name of a function in its
language. `mem_check_duplicateHandler_iff` says which warnings there are. `duplicated_iff_warnsOf` compares them with
the file: two functions have the same name exactly if there is a warning of that name and a function may have it.
A warning of a handler that is left out is about two stubs that are not there (`warning_without_stubs`).
-/

namespace RouteStubs

namespace Lint

/-! ## §1 Warnings -/

/-- Two lists have the same endpoint for every handler. -/
def FindAlike (kept seen : List Endpoint) : Prop :=
  ∀ name, kept.find? (·.handler == name) = seen.find? (·.handler == name)

/-- An endpoint whose handler is known need not be kept. -/
theorem FindAlike.concat_of_some {kept seen : List Endpoint} (h : FindAlike kept seen) {e first : Endpoint}
    (hfirst : seen.find? (·.handler == e.handler) = some first) : FindAlike kept (seen ++ [e]) := by
  intro name
  rw [h name, List.find?_append]
  by_cases hname : e.handler = name
  · rw [← hname, hfirst, Option.some_or]
  · rw [List.find?_cons_of_neg (by simpa using hname), List.find?_nil, Option.or_none]

theorem FindAlike.concat {kept seen : List Endpoint} (h : FindAlike kept seen) (e : Endpoint) :
    FindAlike (kept ++ [e]) (seen ++ [e]) := by
  intro name
  rw [List.find?_append, List.find?_append, h name]

/-- Something holds at a place in a list if it holds at its head or at a place behind. -/
theorem exists_split_cons_iff {α : Type} {holds : List α → α → Prop} {a : α} {l : List α} :
    (∃ before x after, a :: l = before ++ x :: after ∧ holds before x) ↔
      holds [] a ∨ ∃ before x after, l = before ++ x :: after ∧ holds (a :: before) x := by
  constructor
  · rintro ⟨_ | ⟨_, before⟩, x, after, heq, hx⟩
    · obtain ⟨rfl, rfl⟩ := List.cons.inj heq
      exact .inl hx
    · obtain ⟨rfl, rfl⟩ := List.cons.inj heq
      exact .inr ⟨before, x, after, rfl, hx⟩
  · rintro (ha | ⟨before, x, after, rfl, hx⟩)
    · exact ⟨[], a, l, rfl, ha⟩
    · exact ⟨a :: before, x, after, rfl, hx⟩

/-- What the lint keeps of the endpoints before is enough: it warns of an endpoint if there is one before it with
the same handler, and names the first. -/
theorem mem_duplicatesAfter_iff {kept seen : List Endpoint} (h : FindAlike kept seen) {es : List Endpoint}
    {warning : Diagnostic} :
    warning ∈ duplicatesAfter kept es ↔ ∃ before e after, es = before ++ e :: after ∧
      ∃ first, (seen ++ before).find? (·.handler == e.handler) = some first ∧ warning = duplicate first e := by
  induction es generalizing kept seen with
  | nil => simp [duplicatesAfter]
  | cons e es ih =>
    rw [exists_split_cons_iff, duplicatesAfter, h e.handler]
    cases hfirst : seen.find? (·.handler == e.handler) with
    | none => simp [ih (h.concat e), hfirst]
    | some first => simp [ih (h.concat_of_some hfirst), hfirst]

/-- **Which warnings there are**: one of each endpoint that has the handler of one before it, and it names the first
of these. -/
theorem mem_check_duplicateHandler_iff {es : List Endpoint} {warning : Diagnostic} :
    warning ∈ check es .duplicateHandler ↔ ∃ before e after, es = before ++ e :: after ∧
      ∃ first, before.find? (·.handler == e.handler) = some first ∧ warning = duplicate first e := by
  have hnothing : FindAlike [] [] := fun _ => rfl
  exact mem_duplicatesAfter_iff hnothing

/-- The lint warns of a handler: that of an endpoint and of one before it. -/
def WarnsOf (es : List Endpoint) (name : String) : Prop :=
  ∃ first e, [first, e].Sublist es ∧ first.handler = name ∧ e.handler = name ∧
    duplicate first e ∈ check es .duplicateHandler

theorem pair_sublist {first : Endpoint} {before : List Endpoint} (h : first ∈ before) (e : Endpoint)
    (after : List Endpoint) : [first, e].Sublist (before ++ e :: after) :=
  (List.singleton_sublist.mpr h).append (List.singleton_sublist.mpr (List.mem_cons_self ..))

/-- Every warning is about two endpoints of the list, in order, with the same handler. -/
theorem exists_of_mem_check {es : List Endpoint} {warning : Diagnostic}
    (h : warning ∈ check es .duplicateHandler) :
    ∃ first e, [first, e].Sublist es ∧ first.handler = e.handler ∧ warning = duplicate first e := by
  obtain ⟨before, e, after, rfl, first, hfirst, rfl⟩ := mem_check_duplicateHandler_iff.mp h
  exact ⟨first, e, pair_sublist (List.mem_of_find?_eq_some hfirst) e after,
    by simpa using List.find?_some hfirst, rfl⟩

/-- The lint warns of the handler of an endpoint that one before it has. -/
theorem warnsOf_of_mem {before after : List Endpoint} {other e : Endpoint} (hother : other ∈ before)
    (h : other.handler = e.handler) : WarnsOf (before ++ e :: after) e.handler := by
  have hsome : (before.find? (·.handler == e.handler)).isSome :=
    List.find?_isSome.mpr ⟨other, hother, by simpa using h⟩
  obtain ⟨first, hfirst⟩ := Option.isSome_iff_exists.mp hsome
  exact ⟨first, e, pair_sublist (List.mem_of_find?_eq_some hfirst) e after,
    by simpa using List.find?_some hfirst, rfl,
    mem_check_duplicateHandler_iff.mpr ⟨before, e, after, rfl, first, hfirst, rfl⟩⟩

/-- The lint warns of the handlers that more than one endpoint has. -/
theorem warnsOf_iff {es : List Endpoint} {name : String} :
    WarnsOf es name ↔ 1 < (es.map (·.handler)).count name := by
  constructor
  · rintro ⟨first, e, hes, hfirst, he, -⟩
    have hcount : [first.handler, e.handler].count name ≤ _ := (hes.map (·.handler)).count_le name
    rw [hfirst, he, List.count_cons_self, List.count_singleton_self] at hcount
    exact hcount
  · intro hcount
    obtain ⟨es', hes', heq⟩ := List.sublist_map_iff.mp (List.replicate_sublist_iff.mpr hcount)
    obtain ⟨other, e, rfl⟩ : ∃ other e, es' = [other, e] :=
      List.length_eq_two.mp (by simpa using (congrArg List.length heq).symm)
    obtain ⟨hother, rfl⟩ : name = other.handler ∧ name = e.handler := by simpa [List.replicate] using heq
    obtain ⟨before, rest, rfl, hbefore, hrest⟩ := List.cons_sublist_iff.mp hes'
    obtain ⟨between, after, rfl⟩ := List.append_of_mem (List.singleton_sublist.mp hrest)
    rw [← List.append_assoc]
    exact warnsOf_of_mem (List.mem_append_left _ hbefore) hother.symm

end Lint

/-! ## §2 Functions of the same name -/

namespace Source

variable {language : Language} {es : List Endpoint}

/-- A name is that of as many functions as there are endpoints with it, if it can be the name of a function. -/
theorem count_readFunctions (language : Language) (es : List Endpoint) (name : String) :
    (readFunctions language (render language es).text).count name =
      if (nameProblem? language name).isNone then (es.map (·.handler)).count name else 0 := by
  have hhandlers : (render language es).handlers =
      (es.map (·.handler)).filter fun name => (nameProblem? language name).isNone := by
    rw [List.filter_map]
    rfl
  rw [readFunctions_render, hhandlers]
  split_ifs with husable
  · exact List.count_filter husable
  · exact List.count_eq_zero.mpr fun hmem => husable (List.mem_filter.mp hmem).2

/-- The file has a stub for an endpoint and, behind it, one for another. -/
def Rendered.HasStubs (language : Language) (r : Rendered) (first e : Endpoint) : Prop :=
  ∃ before between after,
    r.lines = before ++ stub language first ++ between ++ stub language e ++ after

/-- Two endpoints that are not left out have their stubs in the file, in order. -/
theorem hasStubs_of_sublist {first e : Endpoint} (h : [first, e].Sublist es)
    (hfirst : isUsable language first = true) (he : isUsable language e = true) :
    (render language es).HasStubs language first e := by
  have husable : [first, e].Sublist (es.filter (isUsable language)) := by
    have hfilter := h.filter (isUsable language)
    rwa [List.filter_eq_self.mpr (by simp [hfirst, he])] at hfilter
  obtain ⟨front, rest, hsplit, hfront, hrest⟩ := List.cons_sublist_iff.mp husable
  obtain ⟨before, between, rfl⟩ := List.append_of_mem hfront
  obtain ⟨between', after, rfl⟩ := List.append_of_mem (List.singleton_sublist.mp hrest)
  obtain ⟨top, htop⟩ : ∃ top, (render language es).lines =
      top ++ (es.filter (isUsable language)).flatMap (stub language) := ⟨_, rfl⟩
  refine ⟨top ++ before.flatMap (stub language), (between ++ between').flatMap (stub language),
    after.flatMap (stub language), ?_⟩
  simp only [htop, hsplit, List.flatMap_append, List.flatMap_cons, List.append_assoc]

theorem isUsable_congr {e e' : Endpoint} (h : e.handler = e'.handler) :
    isUsable language e = isUsable language e' := by
  rw [isUsable, isUsable, h]

/-- **Warnings and functions of the same name.** A name is that of more than one function exactly if the lint warns
of it and it can be the name of a function in the language. Without a warning all functions have different names.
Every warning is about two endpoints with the same handler: both have their stubs in the file, in order, or the
handler cannot be the name of a function and there is none of that name. -/
theorem duplicated_iff_warnsOf (language : Language) (es : List Endpoint) :
    (∀ name, 1 < (readFunctions language (render language es).text).count name ↔
      Lint.WarnsOf es name ∧ nameProblem? language name = none) ∧
    (Lint.check es .duplicateHandler = [] → (readFunctions language (render language es).text).Nodup) ∧
    ∀ warning ∈ Lint.check es .duplicateHandler, ∃ first e, [first, e].Sublist es ∧
      first.handler = e.handler ∧ warning = Lint.duplicate first e ∧
      (nameProblem? language e.handler = none → (render language es).HasStubs language first e) ∧
      (nameProblem? language e.handler ≠ none →
        e.handler ∉ readFunctions language (render language es).text) := by
  have hcount : ∀ name, 1 < (readFunctions language (render language es).text).count name ↔
      Lint.WarnsOf es name ∧ nameProblem? language name = none := by
    intro name
    rw [count_readFunctions, Lint.warnsOf_iff]
    cases nameProblem? language name <;> simp
  refine ⟨hcount, fun hnone => ?nodup, fun warning hwarning => ?stubs⟩
  case nodup =>
    refine List.nodup_iff_count_le_one.mpr fun name => Nat.not_lt.mp fun hlt => ?_
    obtain ⟨⟨first, e, -, -, -, hwarning⟩, -⟩ := (hcount name).mp hlt
    rw [hnone] at hwarning
    cases hwarning
  case stubs =>
    obtain ⟨first, e, hes, hsame, rfl⟩ := Lint.exists_of_mem_check hwarning
    refine ⟨first, e, hes, hsame, rfl, fun husable => ?_, fun hproblem => ?_⟩
    · have he : isUsable language e = true := by rw [isUsable, husable]; rfl
      exact hasStubs_of_sublist hes ((isUsable_congr hsame).trans he) he
    · refine List.count_eq_zero.mp ?_
      rw [count_readFunctions, if_neg (by simpa using hproblem)]

/-! ## §3 A warning without functions -/

/-- An API with two methods whose display names have no letter and no digit in them. -/
def namelessApi : Api :=
  (Api.empty "Nameless").addResource
    (((Resource.empty "/a").addMethod { verb := .get, displayName := "!!!" }).addMethod
      { verb := .post, displayName := "???" })

/-- The lint warns that the empty handler is generated for both, and no language has such a function. -/
theorem warning_without_stubs :
    ∃ es, (Walk.ofApi namelessApi).toExcept = .ok es ∧ Lint.WarnsOf es "" ∧
      (Lint.check es .duplicateHandler).map (·.message) =
        ["handler '' is generated for both GET /a and POST /a"] ∧
      ∀ language, readFunctions language (render language es).text = [] := by
  refine ⟨[{ verb := .get, handler := "", path := "/a" }, { verb := .post, handler := "", path := "/a" }],
    ?_, ?_, by decide, fun language => ?_⟩
  · decide
  · exact Lint.warnsOf_iff.mpr (by decide)
  · rw [readFunctions_render]
    cases language <;> decide

end Source

end RouteStubs
