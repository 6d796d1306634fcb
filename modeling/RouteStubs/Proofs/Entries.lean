import Mathlib.Data.List.Induction
import Mathlib.Data.List.Nodup
import Mathlib.Data.List.Perm.Basic
import Mathlib.Order.RelClasses
import RouteStubs.Entries
/-!
Entries that are kept as a map: their keys increase, so that no key stands twice and a value is found
under a key exactly if it is stored there. `increasing_insertSorted` and `mem_insertSorted` say that
setting a value keeps the map a map, and what is in it then; `insertSorted_comm` that the order in which two keys are
set does not matter. `nodup_keys_put` and `mem_put` say the same of entries that are kept in the order in which their
keys were first used, and `map_fst_put` and `eraseDups_concat` what that order is.
-/

namespace RouteStubs.Entries

variable {κ α : Type}

/-! ## §1 Increasing keys -/

/-- Each key is smaller than the keys after it. -/
def Increasing [LT κ] (entries : List (κ × α)) : Prop :=
  entries.Pairwise fun a b => a.1 < b.1

theorem increasing_cons [LT κ] {key : κ} {value : α} {rest : List (κ × α)} :
    Increasing ((key, value) :: rest) ↔ (∀ e ∈ rest, key < e.1) ∧ Increasing rest :=
  List.pairwise_cons

theorem mem_of_lookup [BEq κ] [LawfulBEq κ] {key : κ} {value : α} {entries : List (κ × α)}
    (h : entries.lookup key = some value) : (key, value) ∈ entries := by
  obtain ⟨before, after, rfl, -⟩ := List.lookup_eq_some_iff.mp h
  simp

/-- What is stored under increasing keys is found there. -/
theorem lookup_of_mem [BEq κ] [LawfulBEq κ] [LT κ] (irrefl : ∀ k : κ, ¬ k < k) {key : κ} {value : α}
    {entries : List (κ × α)} (h : Increasing entries) (hmem : (key, value) ∈ entries) :
    entries.lookup key = some value := by
  induction entries with
  | nil => cases hmem
  | cons e rest ih =>
    obtain ⟨k, v⟩ := e
    obtain ⟨hfirst, hrest⟩ := increasing_cons.mp h
    rcases List.mem_cons.mp hmem with heq | hin
    · cases heq
      exact List.lookup_cons_self
    · have hne : key ≠ k := by
        rintro rfl
        exact irrefl key (hfirst (key, value) hin)
      rw [List.lookup_cons, beq_false_of_ne hne]
      exact ih hrest hin

section
variable [DecidableEq κ] [LT κ] [DecidableLT κ] [IsStrictTotalOrder κ (· < ·)]

/-- A value that is set is stored under its key, and what other keys store stays. -/
theorem mem_insertSorted {key : κ} {value : α} {entries : List (κ × α)} (h : Increasing entries)
    {k : κ} {v : α} :
    (k, v) ∈ insertSorted key value entries ↔
      k = key ∧ v = value ∨ k ≠ key ∧ (k, v) ∈ entries := by
  induction entries with
  | nil => simp [insertSorted]
  | cons e rest ih =>
    obtain ⟨l, w⟩ := e
    obtain ⟨hfirst, hrest⟩ := increasing_cons.mp h
    -- a key that is not behind the first one is not stored behind it
    have hnot : ∀ {m : κ}, ¬ l < m → (m, v) ∉ rest := fun hm hmem => hm (hfirst _ hmem)
    rw [insertSorted]
    split
    case isTrue heq =>
      subst heq
      by_cases hk : k = key
      · subst hk
        simp [hnot (irrefl k)]
      · simp [hk]
    case isFalse hkl =>
      split
      case isTrue hlt =>
        by_cases hk : k = key
        · subst hk
          simp [hkl, hnot fun hgt => irrefl k (trans_of (· < ·) hlt hgt)]
        · simp [hk]
      case isFalse =>
        by_cases hk : k = key
        · subst hk
          simp [hkl, ih hrest]
        · simp [hk, ih hrest]

/-- Entries with increasing keys stay so when a value is set. -/
theorem increasing_insertSorted (key : κ) (value : α) {entries : List (κ × α)}
    (h : Increasing entries) : Increasing (insertSorted key value entries) := by
  induction entries with
  | nil => exact List.pairwise_singleton ..
  | cons e rest ih =>
    obtain ⟨l, w⟩ := e
    obtain ⟨hfirst, hrest⟩ := increasing_cons.mp h
    rw [insertSorted]
    split
    case isTrue heq =>
      subst heq
      exact increasing_cons.mpr ⟨hfirst, hrest⟩
    case isFalse hkl =>
      split
      case isTrue hlt =>
        refine increasing_cons.mpr ⟨?_, h⟩
        intro e he
        rcases List.mem_cons.mp he with rfl | he
        · exact hlt
        · exact trans_of (· < ·) hlt (hfirst e he)
      case isFalse hnot =>
        refine increasing_cons.mpr ⟨?_, ih hrest⟩
        rintro ⟨k, v⟩ he
        rcases (mem_insertSorted hrest).mp he with ⟨rfl, -⟩ | ⟨-, hmem⟩
        · rcases trichotomous_of (· < ·) l k with hlt | heq | hlt
          · exact hlt
          · exact absurd heq.symm hkl
          · exact absurd hlt hnot
        · exact hfirst _ hmem

/-- An item under a key that is larger than the others is stored behind them. -/
theorem insertSorted_of_increasing {before after : List (κ × α)} {key : κ} {item : α}
    (h : Increasing (before ++ (key, item) :: after)) :
    insertSorted key item before = before ++ [(key, item)] := by
  induction before with
  | nil => rfl
  | cons e rest ih =>
    obtain ⟨k, w⟩ := e
    obtain ⟨hfirst, hrest⟩ := increasing_cons.mp h
    have hlt : k < key := hfirst (key, item) (List.mem_append_right rest List.mem_cons_self)
    have hne : key ≠ k := by
      rintro rfl
      exact irrefl_of (· < ·) key hlt
    rw [insertSorted, if_neg hne, if_neg (asymm_of (· < ·) hlt), ih hrest, List.cons_append]

end

/-- Increasing entries are determined by what is among them. -/
theorem eq_of_increasing [LT κ] [IsStrictTotalOrder κ (· < ·)] {es es' : List (κ × α)}
    (h : Increasing es) (h' : Increasing es') (hmem : ∀ e, e ∈ es ↔ e ∈ es') : es = es' := by
  have hnodup : ∀ {es : List (κ × α)}, Increasing es → es.Nodup := by
    intro es hes
    refine List.Pairwise.imp ?_ hes
    rintro a _ hlt rfl
    exact irrefl_of (· < ·) a.1 hlt
  have hperm : es.Perm es' := (List.perm_ext_iff_of_nodup (hnodup h) (hnodup h')).mpr hmem
  exact hperm.eq_of_pairwise (fun a b _ _ hab hba => absurd hba (asymm_of (· < ·) hab)) h h'

/-- Where two keys are set one after the other, the order does not matter. -/
theorem insertSorted_comm [DecidableEq κ] [LT κ] [DecidableLT κ] [IsStrictTotalOrder κ (· < ·)] {key other : κ}
    (hne : key ≠ other) (value item : α) {entries : List (κ × α)} (h : Increasing entries) :
    insertSorted key value (insertSorted other item entries) =
      insertSorted other item (insertSorted key value entries) := by
  have hother := increasing_insertSorted other item h
  have hkey := increasing_insertSorted key value h
  refine eq_of_increasing (increasing_insertSorted _ _ hother) (increasing_insertSorted _ _ hkey) ?_
  rintro ⟨k, v⟩
  rw [mem_insertSorted hother, mem_insertSorted h, mem_insertSorted hkey, mem_insertSorted h]
  by_cases hk : k = key
  · simp [hk, hne]
  · simp [hk]

/-! ## §2 Keys in the order of their first use -/

/-- One element more comes last among those that are kept once, unless it is there already. -/
theorem eraseDups_concat [DecidableEq α] (l : List α) (a : α) :
    (l ++ [a]).eraseDups = if a ∈ l then l.eraseDups else l.eraseDups ++ [a] := by
  rw [List.eraseDups_append]
  by_cases h : a ∈ l <;> simp [List.removeAll, List.eraseDups_cons, h]

theorem nodup_eraseDups [DecidableEq α] (l : List α) : l.eraseDups.Nodup := by
  induction l using List.reverseRecOn with
  | nil => exact List.nodup_nil
  | append_singleton l a ih =>
    rw [eraseDups_concat]
    split
    case isTrue => exact ih
    case isFalse h =>
      rw [← List.concat_eq_append]
      exact List.Nodup.concat (by rwa [List.mem_eraseDups]) ih

/-- Where no key stands twice, what is stored under a key is what is found there. -/
theorem lookup_eq_some_iff_mem [BEq κ] [LawfulBEq κ] {entries : List (κ × α)}
    (h : (entries.map Prod.fst).Nodup) {key : κ} {value : α} :
    entries.lookup key = some value ↔ (key, value) ∈ entries := by
  refine ⟨mem_of_lookup, fun hmem => ?_⟩
  induction entries with
  | nil => cases hmem
  | cons e rest ih =>
    obtain ⟨k, v⟩ := e
    obtain ⟨hk, hrest⟩ := List.nodup_cons.mp h
    rcases List.mem_cons.mp hmem with heq | hin
    · cases heq
      exact List.lookup_cons_self
    · have hne : key ≠ k := by
        rintro rfl
        exact hk (List.mem_map.mpr ⟨(key, value), hin, rfl⟩)
      rw [List.lookup_cons, beq_false_of_ne hne]
      exact ih hrest hin

section
variable [DecidableEq κ]

/-- Setting a value keeps the keys and their order, and a new key comes last. -/
theorem map_fst_put (key : κ) (value : α) (entries : List (κ × α)) :
    (put key value entries).map Prod.fst =
      if key ∈ entries.map Prod.fst then entries.map Prod.fst else entries.map Prod.fst ++ [key] := by
  induction entries with
  | nil => rfl
  | cons e rest ih =>
    obtain ⟨l, w⟩ := e
    rw [put]
    split
    case isTrue hl => simp [hl]
    case isFalse hl =>
      rw [List.map_cons, ih]
      by_cases hmem : key ∈ rest.map Prod.fst
      · simp only [List.map_cons, List.mem_cons, hmem, or_true, if_true]
      · simp only [List.map_cons, List.mem_cons, hmem, hl, or_self, if_false, List.cons_append]

theorem mem_keys_put {key k : κ} {value : α} {entries : List (κ × α)} :
    k ∈ (put key value entries).map Prod.fst ↔ k = key ∨ k ∈ entries.map Prod.fst := by
  induction entries with
  | nil => simp [put]
  | cons e rest ih =>
    obtain ⟨l, w⟩ := e
    rw [put]
    split
    case isTrue hl =>
      subst hl
      simp
    case isFalse =>
      rw [List.map_cons, List.mem_cons, ih, List.map_cons, List.mem_cons]
      exact or_left_comm

/-- Where no key stands twice, none does after a value has been set. -/
theorem nodup_keys_put {entries : List (κ × α)} (h : (entries.map Prod.fst).Nodup) (key : κ) (value : α) :
    ((put key value entries).map Prod.fst).Nodup := by
  induction entries with
  | nil => simp [put]
  | cons e rest ih =>
    obtain ⟨l, w⟩ := e
    obtain ⟨hl, hrest⟩ := List.nodup_cons.mp h
    rw [put]
    split
    case isTrue => exact h
    case isFalse hkey =>
      refine List.nodup_cons.mpr ⟨fun hmem => ?_, ih hrest⟩
      rcases mem_keys_put.mp hmem with heq | hmem
      · exact hkey heq.symm
      · exact hl hmem

/-- A value that is set is stored under its key, and what other keys store stays. -/
theorem mem_put {entries : List (κ × α)} (h : (entries.map Prod.fst).Nodup) {key k : κ} {value v : α} :
    (k, v) ∈ put key value entries ↔ k = key ∧ v = value ∨ k ≠ key ∧ (k, v) ∈ entries := by
  induction entries with
  | nil => simp [put]
  | cons e rest ih =>
    obtain ⟨l, w⟩ := e
    obtain ⟨hl, hrest⟩ := List.nodup_cons.mp h
    rw [put]
    split
    case isTrue hkey =>
      subst hkey
      have hnot : ∀ v, (key, v) ∉ rest := fun v hmem => hl (List.mem_map.mpr ⟨(key, v), hmem, rfl⟩)
      by_cases hk : k = key
      · subst hk
        simp [hnot]
      · simp [hk]
    case isFalse hkey =>
      by_cases hk : k = key
      · subst hk
        simp [hkey, ih hrest]
      · simp [hk, ih hrest]

/-- A value under a new key comes last. -/
theorem put_of_notMem {key : κ} {value : α} {entries : List (κ × α)} (h : key ∉ entries.map Prod.fst) :
    put key value entries = entries ++ [(key, value)] := by
  induction entries with
  | nil => rfl
  | cons e rest ih =>
    obtain ⟨l, w⟩ := e
    obtain ⟨hne, hrest⟩ := List.ne_and_not_mem_of_not_mem_cons h
    rw [put, if_neg hne, ih hrest, List.cons_append]

end

end RouteStubs.Entries
