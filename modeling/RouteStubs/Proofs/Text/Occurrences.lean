import RouteStubs.Text.Utf8
/-!
Reading a text from its start: a given start is dropped, and a text is split at a mark that is not in it
any earlier.
-/

namespace RouteStubs.Text

theorem dropStart?_append (start rest : List Char) : dropStart? start (start ++ rest) = some rest := by
  induction start with
  | nil => rfl
  | cons c start ih => rw [List.cons_append, dropStart?, if_pos rfl, ih]

theorem dropStart?_cons_of_ne {c d : Char} (h : c ≠ d) (start text : List Char) :
    dropStart? (c :: start) (d :: text) = none := by
  rw [dropStart?, if_neg h]

/-- **A text is split at the mark that was put behind it**, if the first character of the mark is not in
the text. -/
theorem splitAtFirst?_append {s : List Char} {c : Char} (h : c ∉ s) (needle rest : List Char) :
    splitAtFirst? (c :: needle) (s ++ c :: needle ++ rest) = some (s, rest) := by
  induction s with
  | nil =>
    have hdrop : dropStart? (c :: needle) (c :: (needle ++ rest)) = some rest :=
      dropStart?_append (c :: needle) rest
    rw [List.nil_append, List.cons_append, splitAtFirst?, hdrop]
  | cons d s ih =>
    have hd : c ≠ d := List.ne_of_not_mem_cons h
    have hs : c ∉ s := List.not_mem_of_not_mem_cons h
    rw [List.cons_append, List.cons_append, splitAtFirst?, dropStart?_cons_of_ne hd, ih hs]
    rfl

theorem dropStart?_eq_some {start text rest : List Char} :
    dropStart? start text = some rest ↔ text = start ++ rest := by
  constructor
  · intro h
    induction start generalizing text with
    | nil => simpa [dropStart?] using h
    | cons c start ih =>
      cases text with
      | nil => cases h
      | cons d text =>
        rw [dropStart?] at h
        split at h
        case isTrue hc => rw [hc, ih h, List.cons_append]
        case isFalse => cases h
  · rintro rfl
    exact dropStart?_append start rest

/-- **A text is split at the first occurrence**: every other one begins where this one does or later. -/
theorem splitAtFirst?_eq_some {needle text before after : List Char}
    (h : splitAtFirst? needle text = some (before, after)) :
    text = before ++ (needle ++ after) ∧
      ∀ before' after', text = before' ++ (needle ++ after') → before.length ≤ before'.length := by
  induction text generalizing before with
  | nil =>
    obtain ⟨after, hdrop, heq⟩ := Option.map_eq_some_iff.mp h
    obtain ⟨rfl, rfl⟩ := Prod.mk.inj heq
    have hstart : [] = needle ++ after := dropStart?_eq_some.mp hdrop
    exact ⟨hstart, fun _ _ _ => Nat.zero_le _⟩
  | cons c text ih =>
    rw [splitAtFirst?] at h
    cases hdrop : dropStart? needle (c :: text) with
    | some rest =>
      rw [hdrop] at h
      obtain ⟨rfl, rfl⟩ := Prod.mk.inj (Option.some.inj h)
      have hstart : c :: text = needle ++ rest := dropStart?_eq_some.mp hdrop
      exact ⟨hstart, fun _ _ _ => Nat.zero_le _⟩
    | none =>
      rw [hdrop] at h
      obtain ⟨⟨before₁, after₁⟩, hsplit, heq⟩ := Option.map_eq_some_iff.mp h
      obtain ⟨rfl, rfl⟩ := Prod.mk.inj heq
      obtain ⟨htext, hfirst⟩ := ih hsplit
      refine ⟨by rw [htext, List.cons_append], fun before' after' heq => ?_⟩
      cases before' with
      | nil =>
        have hstart : c :: text = needle ++ after' := heq
        rw [dropStart?_eq_some.mpr hstart] at hdrop
        cases hdrop
      | cons d before' => exact Nat.succ_le_succ (hfirst before' after' (List.cons.inj heq).2)

/-- The first occurrence does not depend on what stands behind it. -/
theorem splitAtFirst?_append_of_eq_some {needle text before after : List Char}
    (h : splitAtFirst? needle text = some (before, after)) (rest : List Char) :
    splitAtFirst? needle (text ++ rest) = some (before, after ++ rest) := by
  induction text generalizing before with
  | nil =>
    obtain ⟨after, hdrop, heq⟩ := Option.map_eq_some_iff.mp h
    obtain ⟨rfl, rfl⟩ := Prod.mk.inj heq
    obtain ⟨rfl, rfl⟩ := List.append_eq_nil_iff.mp (dropStart?_eq_some.mp hdrop).symm
    cases rest <;> rfl
  | cons c text ih =>
    rw [splitAtFirst?] at h
    rw [List.cons_append, splitAtFirst?, ← List.cons_append]
    cases hdrop : dropStart? needle (c :: text) with
    | some rest' =>
      rw [hdrop] at h
      obtain ⟨rfl, rfl⟩ := Prod.mk.inj (Option.some.inj h)
      have hstart : c :: text ++ rest = needle ++ (rest' ++ rest) := by
        rw [dropStart?_eq_some.mp hdrop, List.append_assoc]
      rw [dropStart?_eq_some.mpr hstart]
    | none =>
      rw [hdrop] at h
      obtain ⟨⟨before₁, after₁⟩, hsplit, heq⟩ := Option.map_eq_some_iff.mp h
      obtain ⟨rfl, rfl⟩ := Prod.mk.inj heq
      -- The needle is in `text`, so it is too short to end behind it.
      have hlength : needle.length ≤ (c :: text).length := by
        rw [(splitAtFirst?_eq_some hsplit).1]
        simp only [List.length_cons, List.length_append]
        omega
      have hnone : dropStart? needle (c :: text ++ rest) = none := by
        refine Option.eq_none_iff_forall_ne_some.mpr fun after' hafter => ?_
        obtain ⟨after'', hstart⟩ := List.prefix_of_prefix_length_le
          ⟨after', (dropStart?_eq_some.mp hafter).symm⟩ (List.prefix_append ..) hlength
        rw [dropStart?_eq_some.mpr hstart.symm] at hdrop
        cases hdrop
      rw [hnone, ih hsplit]
      rfl

theorem splitAtFirst?_eq_none {needle text : List Char} (h : splitAtFirst? needle text = none)
    (before after : List Char) : text ≠ before ++ (needle ++ after) := by
  induction text generalizing before with
  | nil =>
    intro heq
    obtain ⟨-, hstart⟩ := List.append_eq_nil_iff.mp heq.symm
    have hdrop : dropStart? needle [] = some after := dropStart?_eq_some.mpr hstart.symm
    simp [splitAtFirst?, hdrop] at h
  | cons c text ih =>
    rw [splitAtFirst?] at h
    cases hdrop : dropStart? needle (c :: text) with
    | some rest => rw [hdrop] at h; cases h
    | none =>
      rw [hdrop] at h
      intro heq
      cases before with
      | nil =>
        have hstart : c :: text = needle ++ after := heq
        rw [dropStart?_eq_some.mpr hstart] at hdrop
        cases hdrop
      | cons d before => exact ih (Option.map_eq_none_iff.mp h) before (List.cons.inj heq).2

end RouteStubs.Text
