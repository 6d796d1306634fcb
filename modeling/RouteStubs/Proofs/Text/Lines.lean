import RouteStubs.Text.Space
/-!
Lines of a text: where their characters come from, and what is read back from lines that were written.

`splitLines_unlines` is the round trip: lines without a line feed are the pieces of the text that they
are written to, and one empty piece follows the last of them.
-/

namespace RouteStubs.Text

/-! ## §1 Trimming drops characters and adds none -/

theorem mem_of_mem_trimStart {c : Char} {s : List Char} (h : c ∈ trimStart s) : c ∈ s :=
  (List.dropWhile_sublist _).subset h

theorem mem_of_mem_trimEnd {c : Char} {s : List Char} (h : c ∈ trimEnd s) : c ∈ s :=
  List.mem_reverse.mp ((List.dropWhile_sublist _).subset (List.mem_reverse.mp h))

theorem mem_of_mem_trim {c : Char} {s : List Char} (h : c ∈ trim s) : c ∈ s :=
  mem_of_mem_trimStart (mem_of_mem_trimEnd h)

/-! ## §2 Pieces and lines -/

theorem splitLines_ne_nil (s : List Char) : splitLines s ≠ [] := by
  induction s with
  | nil => simp [splitLines]
  | cons c rest ih =>
    rw [splitLines]
    split
    · simp
    · obtain ⟨p, ps, hp⟩ := List.exists_cons_of_ne_nil ih
      simp [hp]

theorem splitLines_cons_of_ne {c : Char} (h : c ≠ '\n') {rest p : List Char} {ps : List (List Char)}
    (hp : splitLines rest = p :: ps) : splitLines (c :: rest) = (c :: p) :: ps := by
  rw [splitLines, if_neg h, hp, List.modifyHead_cons]

/-- The characters of a piece are in the text, and no line feed is among them. -/
theorem mem_of_mem_splitLines {s p : List Char} (hp : p ∈ splitLines s) {c : Char} (hc : c ∈ p) :
    c ∈ s ∧ c ≠ '\n' := by
  induction s generalizing p with
  | nil =>
    obtain rfl : p = [] := by simpa [splitLines] using hp
    cases hc
  | cons d rest ih =>
    by_cases hd : d = '\n'
    · rw [splitLines, if_pos hd] at hp
      rcases List.mem_cons.mp hp with rfl | hp
      · cases hc
      · obtain ⟨hmem, hne⟩ := ih hp hc
        exact ⟨List.mem_cons_of_mem _ hmem, hne⟩
    · obtain ⟨q, qs, hq⟩ := List.exists_cons_of_ne_nil (splitLines_ne_nil rest)
      rw [splitLines_cons_of_ne hd hq] at hp
      rcases List.mem_cons.mp hp with rfl | hp
      · rcases List.mem_cons.mp hc with rfl | hc
        · exact ⟨List.mem_cons_self .., hd⟩
        · obtain ⟨hmem, hne⟩ := ih (p := q) (by simp [hq]) hc
          exact ⟨List.mem_cons_of_mem _ hmem, hne⟩
      · obtain ⟨hmem, hne⟩ := ih (p := p) (by simp [hq, hp]) hc
        exact ⟨List.mem_cons_of_mem _ hmem, hne⟩

theorem mem_of_mem_dropReturn {c : Char} {line : List Char} (h : c ∈ dropReturn line) : c ∈ line := by
  rw [dropReturn] at h
  split at h
  · exact (List.dropLast_sublist _).subset h
  · exact h

/-- The characters of a line are in the text, and no line feed is among them. -/
theorem mem_of_mem_lines {s l : List Char} (hl : l ∈ lines s) {c : Char} (hc : c ∈ l) :
    c ∈ s ∧ c ≠ '\n' := by
  have hended : ∀ l ∈ (splitLines s).dropLast.map dropReturn, ∀ c ∈ l, c ∈ s ∧ c ≠ '\n' := by
    intro l hl c hc
    obtain ⟨p, hp, rfl⟩ := List.mem_map.mp hl
    exact mem_of_mem_splitLines ((List.dropLast_sublist _).subset hp) (mem_of_mem_dropReturn hc)
  rw [lines] at hl
  split at hl
  · exact hended l hl c hc
  · exact hended l hl c hc
  · next last _ hlast =>
    rcases List.mem_append.mp hl with hl | hl
    · exact hended l hl c hc
    · obtain rfl : l = last := List.mem_singleton.mp hl
      exact mem_of_mem_splitLines (List.mem_of_getLast? hlast) hc

/-! ## §3 Writing lines and reading them back -/

theorem splitLines_append_newline {l : List Char} (h : '\n' ∉ l) (rest : List Char) :
    splitLines (l ++ '\n' :: rest) = l :: splitLines rest := by
  induction l with
  | nil => rw [List.nil_append, splitLines, if_pos rfl]
  | cons c l ih =>
    have hc : c ≠ '\n' := fun heq => h (by simp [heq])
    exact splitLines_cons_of_ne hc (ih fun hmem => h (List.mem_cons_of_mem _ hmem))

theorem dropReturn_of_not_mem {line : List Char} (h : '\r' ∉ line) : dropReturn line = line := by
  rw [dropReturn, if_neg fun hlast => h (List.mem_of_getLast? hlast)]

/-- The first line of a text is what stands in front of the first line feed. -/
theorem head?_lines {l : List Char} (hfeed : '\n' ∉ l) (hreturn : '\r' ∉ l) (rest : List Char) :
    (lines (l ++ '\n' :: rest)).head? = some l := by
  rw [lines, splitLines_append_newline hfeed, List.dropLast_cons_of_ne_nil (splitLines_ne_nil rest)]
  simp only [List.map_cons, dropReturn_of_not_mem hreturn]
  split <;> rfl

/-- **Lines are read back as they were written.** -/
theorem splitLines_unlines {ls : List (List Char)} (h : ∀ l ∈ ls, '\n' ∉ l) :
    splitLines (unlines ls) = ls ++ [[]] := by
  induction ls with
  | nil => rfl
  | cons l ls ih =>
    have hsplit : unlines (l :: ls) = l ++ '\n' :: unlines ls := by simp [unlines]
    rw [hsplit, splitLines_append_newline (h l (List.mem_cons_self ..)),
      ih fun l' hl' => h l' (List.mem_cons_of_mem _ hl'), List.cons_append]

/-- A list is read from what was written of it, if each of its members is. -/
theorem mapM_map_of_forall {α β γ : Type} {write : α → β} {read : β → Option γ} {kept : α → γ} {as : List α}
    (h : ∀ a ∈ as, read (write a) = some (kept a)) : (as.map write).mapM read = some (as.map kept) := by
  induction as with
  | nil => rfl
  | cons a as ih =>
    obtain ⟨ha, has⟩ := List.forall_mem_cons.mp h
    simp [ha, ih has]

/-! ## §4 The first line -/

/-- What stands in front of the first line feed, or the whole text if there is none. -/
def beforeFeed (s : List Char) : List Char := s.takeWhile (· ≠ '\n')

theorem beforeFeed_append {l : List Char} (h : '\n' ∉ l) (rest : List Char) :
    beforeFeed (l ++ rest) = l ++ beforeFeed rest :=
  List.takeWhile_append_of_pos fun _ hc => decide_eq_true fun heq => h (heq ▸ hc)

theorem beforeFeed_of_not_mem {s : List Char} (h : '\n' ∉ s) : beforeFeed s = s := by
  have hend : beforeFeed [] = [] := rfl
  have happend := beforeFeed_append h []
  rwa [hend, List.append_nil] at happend

theorem splitLines_of_not_mem {s : List Char} (h : '\n' ∉ s) : splitLines s = [s] := by
  induction s with
  | nil => rfl
  | cons c s ih =>
    exact splitLines_cons_of_ne (List.ne_of_not_mem_cons h).symm (ih (List.not_mem_of_not_mem_cons h))

/-- The first line is what stands in front of the first line feed. Without a line feed, a carriage return at its
end is one of its characters. -/
theorem head?_lines_getD (s : List Char) :
    (lines s).head?.getD [] = if '\n' ∈ s then dropReturn (beforeFeed s) else beforeFeed s := by
  split
  case isTrue hfeed =>
    obtain ⟨l, rest, rfl, hl⟩ := List.eq_append_cons_of_mem hfeed
    have hline : beforeFeed (l ++ '\n' :: rest) = l := by
      rw [beforeFeed_append hl, beforeFeed, List.takeWhile_cons_of_neg (by decide), List.append_nil]
    rw [hline, lines, splitLines_append_newline hl, List.dropLast_cons_of_ne_nil (splitLines_ne_nil rest)]
    split <;> rfl
  case isFalse hfeed =>
    rw [lines, splitLines_of_not_mem hfeed, beforeFeed_of_not_mem hfeed]
    cases s <;> rfl

theorem dropReturn_prefix (line : List Char) : dropReturn line <+: line := by
  rw [dropReturn]
  split
  · exact List.dropLast_prefix line
  · exact List.prefix_rfl

/-- What a line begins with behind its white space does not depend on its carriage return. -/
theorem prefix_trimStart_dropReturn {start : List Char} (h : start.getLast? ≠ some '\r') (line : List Char) :
    start <+: trimStart (dropReturn line) ↔ start <+: trimStart line := by
  rw [dropReturn]
  split
  case isFalse => exact Iff.rfl
  case isTrue hreturn =>
    obtain ⟨l, rfl⟩ := List.getLast?_eq_some_iff.mp hreturn
    rw [List.dropLast_concat, trimStart, trimStart, List.dropWhile_append]
    split
    case isTrue hspace =>
      have hblank : ['\r'].dropWhile isSpace = [] := rfl
      rw [hblank, List.isEmpty_iff.mp hspace]
    case isFalse =>
      rw [List.prefix_concat_iff]
      refine (or_iff_right fun heq => h ?_).symm
      rw [heq, List.getLast?_concat]

end RouteStubs.Text
