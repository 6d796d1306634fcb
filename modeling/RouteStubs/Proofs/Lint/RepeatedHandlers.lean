import Mathlib.Data.Finset.Card
import Mathlib.Data.List.Induction
import Mathlib.Order.Bounds.Defs
import RouteStubs.Proofs.Lint.DuplicateHandler
/-!
Which endpoints the lint warns of, one by one, and how many they are.

The lint goes through the endpoints once, and keeps the first endpoint of each handler. `check_concat` says what one
more endpoint at the end adds: a warning if an endpoint before it has its handler, and nothing otherwise. What holds
of a whole list is an induction from the end of the list on top of that:

* `check_eq_filterMap` — the warnings, from the position of the endpoint that each is about.
* `length_check_add_card` — their number: every endpoint either is warned of or brings a new handler.

`check_repeats` puts the two together.
-/

namespace RouteStubs.Lint

/-! ## §1 One more endpoint -/

/-- The warning about an endpoint behind others, if one of them has its handler. -/
def warning? (before : List Endpoint) (e : Endpoint) : Option Diagnostic :=
  (before.find? (·.handler == e.handler)).map (duplicate · e)

theorem warning?_isSome_iff {before : List Endpoint} {e : Endpoint} :
    (warning? before e).isSome ↔ e.handler ∈ before.map (·.handler) := by
  simp [warning?]

theorem duplicatesAfter_concat {kept seen : List Endpoint} (h : FindAlike kept seen) (es : List Endpoint)
    (e : Endpoint) :
    duplicatesAfter kept (es ++ [e]) = duplicatesAfter kept es ++ (warning? (seen ++ es) e).toList := by
  induction es generalizing kept seen with
  | nil =>
    simp only [List.nil_append, List.append_nil, duplicatesAfter, warning?, h e.handler]
    cases seen.find? (·.handler == e.handler) <;> rfl
  | cons d es ih =>
    simp only [List.cons_append, duplicatesAfter, h d.handler]
    -- The endpoint `d` is kept if its handler is new; either way the rest of the run has seen it.
    cases hfirst : seen.find? (·.handler == d.handler) with
    | none => simp [ih (h.concat d)]
    | some first => simp [ih (h.concat_of_some hfirst)]

/-- **What one more endpoint adds**: a warning if an endpoint before it has its handler, and nothing otherwise. -/
theorem check_concat (es : List Endpoint) (e : Endpoint) :
    check (es ++ [e]) .duplicateHandler = check es .duplicateHandler ++ (warning? es e).toList := by
  have hnothing : FindAlike [] [] := fun _ => rfl
  exact duplicatesAfter_concat hnothing es e

/-! ## §2 The warnings by position -/

/-- The warning about the endpoint at a position, if there is one. -/
def warningAt (es : List Endpoint) (i : Nat) : Option Diagnostic := es[i]?.bind (warning? (es.take i))

theorem warningAt_concat_of_lt {es : List Endpoint} {i : Nat} (h : i < es.length) (e : Endpoint) :
    warningAt (es ++ [e]) i = warningAt es i := by
  unfold warningAt
  rw [List.getElem?_append_left h, List.take_append_of_le_length (Nat.le_of_lt h)]

theorem warningAt_concat_length (es : List Endpoint) (e : Endpoint) :
    warningAt (es ++ [e]) es.length = warning? es e := by
  simp [warningAt]

theorem check_eq_filterMap (es : List Endpoint) :
    check es .duplicateHandler = (List.range es.length).filterMap (warningAt es) := by
  induction es using List.reverseRecOn with
  | nil => rfl
  | append_singleton es e ih =>
    have hbefore : (List.range es.length).filterMap (warningAt (es ++ [e])) =
        (List.range es.length).filterMap (warningAt es) :=
      List.filterMap_congr fun i hi => warningAt_concat_of_lt (List.mem_range.mp hi) e
    rw [check_concat, ih, List.length_append, List.length_singleton, List.range_succ, List.filterMap_append,
      hbefore]
    cases hlast : warning? es e <;> simp [warningAt_concat_length, hlast]

/-- The endpoints at two positions have the same handler. -/
def SameHandler (es : List Endpoint) (j i : Nat) : Prop :=
  ∃ d e, es[j]? = some d ∧ es[i]? = some e ∧ d.handler = e.handler

theorem mem_take_iff {es : List Endpoint} {i : Nat} {d : Endpoint} :
    d ∈ es.take i ↔ ∃ j < i, es[j]? = some d := by
  simp only [List.mem_iff_getElem?, List.getElem?_take, Option.ite_none_right_eq_some]

/-- There is a warning about a position exactly if an earlier one has the same handler. -/
theorem warningAt_isSome_iff {es : List Endpoint} {i : Nat} :
    (warningAt es i).isSome ↔ ∃ j < i, SameHandler es j i := by
  unfold warningAt SameHandler
  cases hcurrent : es[i]? with
  | none => simp
  | some e =>
    simp only [Option.bind_some, warning?_isSome_iff, List.mem_map, mem_take_iff]
    constructor
    · rintro ⟨d, ⟨j, hj, hd⟩, hsame⟩
      exact ⟨j, hj, d, e, hd, rfl, hsame⟩
    · rintro ⟨j, hj, d, e', hd, he, hsame⟩
      obtain rfl : e = e' := Option.some.inj he
      exact ⟨d, ⟨j, hj, hd⟩, hsame⟩

/-- The diagnostic is the warning about two endpoints: it names their handler and then both of them, each by verb and
path, and it is located at the second. -/
structure NamesBoth (first e : Endpoint) (warning : Diagnostic) : Prop where
  severity : warning.severity = .warning
  lint : warning.lint = "duplicate-handler"
  message : warning.message = "handler '" ++ e.handler ++ "' is generated for both " ++
    (first.verb.name ++ " " ++ first.path) ++ " and " ++ (e.verb.name ++ " " ++ e.path)
  location : warning.location = some (e.verb.name ++ " " ++ e.path)

theorem namesBoth_duplicate (first e : Endpoint) : NamesBoth first e (duplicate first e) := ⟨rfl, rfl, rfl, rfl⟩

/-- The warning about the endpoint at a position: it names the first endpoint with the same handler, and then the
endpoint itself, where it is located. -/
def WarnsOfFirst (es : List Endpoint) (i : Nat) (warning : Diagnostic) : Prop :=
  ∃ j first e, IsLeast {k | SameHandler es k i} j ∧ es[j]? = some first ∧ es[i]? = some e ∧
    NamesBoth first e warning

theorem warnsOfFirst_of_warningAt {es : List Endpoint} {i : Nat} {warning : Diagnostic}
    (h : warningAt es i = some warning) : WarnsOfFirst es i warning := by
  obtain ⟨e, he, hwarning⟩ := Option.bind_eq_some_iff.mp h
  obtain ⟨first, hfirst, rfl⟩ := Option.map_eq_some_iff.mp hwarning
  obtain ⟨hsame, j, hj, hget, hearlier⟩ := List.find?_eq_some_iff_getElem.mp hfirst
  have hji : j < i ∧ j < es.length := by simpa using hj
  have hj? : es[j]? = some first := by
    rw [List.getElem_take] at hget
    rw [List.getElem?_eq_getElem hji.2, hget]
  refine ⟨j, first, e, ⟨?same, ?least⟩, hj?, he, namesBoth_duplicate first e⟩
  case same => exact ⟨first, e, hj?, he, by simpa using hsame⟩
  case least =>
    rintro k ⟨d, e', hd, he', hde⟩
    obtain rfl : e = e' := Option.some.inj (he.symm.trans he')
    by_contra hkj
    have hk := hearlier k (Nat.lt_of_not_le hkj)
    rw [List.getElem_take, (List.getElem?_eq_some_iff.mp hd).2] at hk
    simp [hde] at hk

/-- The warnings are about repeated handlers: there is one for each position whose handler stands at an earlier one,
in the order of positions, and each names the first endpoint with the handler. -/
structure WarnsOfRepeats (es : List Endpoint) (positions : List Nat) (warnings : List Diagnostic) : Prop where
  increasing : positions.Pairwise (· < ·)
  mem_iff : ∀ i, i ∈ positions ↔ ∃ j < i, SameHandler es j i
  warns : List.Forall₂ (WarnsOfFirst es) positions warnings

theorem check_warnsOfRepeats (es : List Endpoint) :
    ∃ positions, WarnsOfRepeats es positions (check es .duplicateHandler) := by
  refine ⟨(List.range es.length).filter fun i => (warningAt es i).isSome, ?increasing, ?mem, ?warns⟩
  case increasing => exact List.pairwise_lt_range.filter _
  case mem =>
    intro i
    simp only [List.mem_filter, List.mem_range, warningAt_isSome_iff, and_iff_right_iff_imp]
    rintro ⟨j, -, d, e, -, he, -⟩
    exact (List.getElem?_eq_some_iff.mp he).1
  case warns =>
    rw [check_eq_filterMap]
    exact (Source.forall₂_filterMap (warningAt es) _).imp fun _ _ => warnsOfFirst_of_warningAt

/-! ## §3 The number of warnings -/

/-- **Every endpoint is warned of or brings a new handler.** -/
theorem length_check_add_card (es : List Endpoint) :
    (check es .duplicateHandler).length + (es.map (·.handler)).toFinset.card = es.length := by
  induction es using List.reverseRecOn with
  | nil => rfl
  | append_singleton es e ih =>
    have hset : ((es ++ [e]).map (·.handler)).toFinset =
        insert e.handler (es.map (·.handler)).toFinset := by
      ext name
      simp
    rw [check_concat, hset, List.length_append, List.length_append, List.length_singleton]
    by_cases hknown : e.handler ∈ es.map (·.handler)
    · obtain ⟨warning, hwarning⟩ := Option.isSome_iff_exists.mp (warning?_isSome_iff.mpr hknown)
      rw [Finset.insert_eq_of_mem (List.mem_toFinset.mpr hknown), hwarning]
      simp
      omega
    · have hnone : warning? es e = none := by
        rw [← Option.not_isSome_iff_eq_none, warning?_isSome_iff]
        exact hknown
      rw [Finset.card_insert_of_notMem (by simpa using hknown), hnone]
      simp
      omega

theorem check_eq_nil_iff (es : List Endpoint) :
    check es .duplicateHandler = [] ↔ (es.map (·.handler)).Nodup := by
  have hcount := length_check_add_card es
  have hnodup : (es.map (·.handler)).toFinset.card = (es.map (·.handler)).length ↔ (es.map (·.handler)).Nodup :=
    Multiset.toFinset_card_eq_card_iff_nodup
  rw [← hnodup, List.length_map, ← List.length_eq_zero_iff]
  omega

/-- **The warnings about shared handlers.** There is exactly one for each endpoint whose handler an earlier one has,
in the order of the list. It names the handler, the first endpoint with it, and the endpoint itself, where it is
located. So there are as many as there are endpoints less different handlers, and none exactly if no two endpoints
share a handler. -/
theorem check_repeats (es : List Endpoint) :
    let warnings := check es .duplicateHandler
    let handlers := es.map (·.handler)
    (∃ positions, WarnsOfRepeats es positions warnings) ∧
      warnings.length + handlers.toFinset.card = es.length ∧
      (warnings = [] ↔ handlers.Nodup) :=
  ⟨check_warnsOfRepeats es, length_check_add_card es, check_eq_nil_iff es⟩

/-- Endpoints of which three have one handler, with another between them. -/
def fetchers : List Endpoint :=
  [{ verb := .get, handler := "Fetch", path := "/a" }, { verb := .get, handler := "Fetch", path := "/b" },
    { verb := .put, handler := "Other", path := "/b" }, { verb := .post, handler := "Fetch", path := "/c" }]

/-- The second and the third of them are warned of, each together with the first. -/
theorem check_repeats_fetchers :
    (∃ positions, WarnsOfRepeats fetchers positions (check fetchers .duplicateHandler)) ∧
      (check fetchers .duplicateHandler).length + ({"Fetch", "Other"} : Finset String).card = fetchers.length ∧
      check fetchers .duplicateHandler =
        [⟨.warning, "duplicate-handler", "handler 'Fetch' is generated for both GET /a and GET /b", some "GET /b"⟩,
          ⟨.warning, "duplicate-handler", "handler 'Fetch' is generated for both GET /a and POST /c",
            some "POST /c"⟩] :=
  ⟨(check_repeats fetchers).1, (check_repeats fetchers).2.1, by decide⟩

end RouteStubs.Lint
