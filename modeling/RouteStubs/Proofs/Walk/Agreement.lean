import Mathlib.Data.List.Nodup
import RouteStubs.Proofs.Agreement
import RouteStubs.Proofs.Walk.Enumeration
/-!
Walks over APIs that are the same but for the order of query parameters.

A walk puts query parameters into the order of their keys, so that the order in which they are declared does not
matter where no name is declared twice: `Walk.ofApi_eq_of_agrees`.
-/

namespace RouteStubs

namespace Walk

theorem sortByKey_eq_of_perm {ps qs : List Parameter} (h : ps.Perm qs) (hkeys : (ps.map Parameter.key).Nodup) :
    sortByKey ps = sortByKey qs := by
  have hperm : (sortByKey ps).Perm (sortByKey qs) :=
    (sortByKey_perm ps).trans (h.trans (sortByKey_perm qs).symm)
  have hps : SortedByKey (sortByKey ps) := foldl_insertByKey_sorted ps List.Pairwise.nil
  have hqs : SortedByKey (sortByKey qs) := foldl_insertByKey_sorted qs List.Pairwise.nil
  refine hperm.eq_of_pairwise (fun p q hp hq hpq hqp => ?_) hps hqs
  have hkey : p.key = q.key := String.le_antisymm (String.not_lt.mp hpq) (String.not_lt.mp hqp)
  have hp' : p ∈ ps := (sortByKey_perm ps).mem_iff.mp hp
  have hq' : q ∈ ps := h.mem_iff.mpr ((sortByKey_perm qs).mem_iff.mp hq)
  exact List.inj_on_of_nodup_map hkeys hp' hq' hkey

theorem ofMethod_eq_of_agrees {m m' : Method} (h : m.Agrees List.Perm m') (hm : m.DeclaresOnce) (path : String)
    (parameters : List Parameter) : ofMethod path parameters m = ofMethod path parameters m' := by
  have hkeys : ((Parameter.ofDecls m.queryParameters).map Parameter.key).Nodup := by
    rw [Parameter.map_key_ofDecls]
    exact hm
  have hsort : sortByKey (Parameter.ofDecls m.queryParameters) =
      sortByKey (Parameter.ofDecls m'.queryParameters) :=
    sortByKey_eq_of_perm (h.queryParameters.map _) hkeys
  rw [ofMethod, ofMethod, hsort, h.same]

theorem ofMethods_eq_of_agree {ms ms' : List (Verb × Method)}
    (h : List.Forall₂ (fun e e' => e.1 = e'.1 ∧ e.2.Agrees List.Perm e'.2) ms ms')
    (hms : ∀ e ∈ ms, e.2.DeclaresOnce) (path : String) (parameters : List Parameter) :
    ofMethods path parameters ms = ofMethods path parameters ms' := by
  induction h with
  | nil => rfl
  | @cons e e' rest rest' first _ ih =>
    obtain ⟨verb, m⟩ := e
    obtain ⟨verb', m'⟩ := e'
    obtain ⟨hm, hrest⟩ := List.forall_mem_cons.mp hms
    rw [ofMethods, ofMethods, ofMethod_eq_of_agrees first.2 hm, ih hrest]

theorem ofResources_eq_of_agree {rs rs' : Resources} (h : Resources.Agree List.Perm rs rs')
    (hrs : Resources.DeclareOnce rs) (path : String) (inherited : List Parameter) :
    ofResources path inherited rs = ofResources path inherited rs' := by
  induction h generalizing path inherited with
  | nil => rfl
  | @cons key r r' rest rest' same methods _ _ below beside =>
    obtain ⟨hr, hbelow, hbeside⟩ := (Resources.every_cons ..).mp hrs
    have hparameters : r'.uriParameters = r.uriParameters := by rw [same]
    rw [ofResources_cons, ofResources_cons, hparameters, ofMethods_eq_of_agree methods hr.methods,
      below hbelow, beside hbeside]

/-- **The order in which query parameters are declared does not matter to a walk**, if none is declared
twice. -/
theorem ofApi_eq_of_agrees {api api' : Api} (h : api.Agrees List.Perm api')
    (hapi : Resources.DeclareOnce api.resources) : ofApi api = ofApi api' :=
  ofResources_eq_of_agree h.resources hapi "" []

end Walk

end RouteStubs
