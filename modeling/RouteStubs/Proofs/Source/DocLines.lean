import Mathlib.Data.List.DropRight
import RouteStubs.Proofs.Source.Comment
/-!
The normal form of a description.

The lines that a description becomes are in a normal form, `IsNormal`: no control character but the tab, no white
space behind a line, and nothing empty or blank at either end.

* `isNormal_docLines` — whatever the description is, its lines are in normal form.
* `docLines_intercalate` — lines in normal form are what they become again once they are joined. So the normal
  forms are exactly what a description can become, and to take the lines twice is to take them once.
* `filter_flatten_docLines` — the characters that show are all kept, in their order.
* `docLines_withBreaks` — which characters break the lines of a description does not matter.
-/

namespace RouteStubs

/-! ## §1 Trimming -/

namespace Text

theorem ne_newline_of_not_isSpace {c : Char} (h : isSpace c = false) : c ≠ '\n' := by
  rintro rfl
  exact absurd h (by decide)

theorem trimEnd_eq_rdropWhile (s : List Char) : trimEnd s = s.rdropWhile isSpace := rfl

theorem isSpace_getLast_trimEnd {s : List Char} {c : Char} (h : (trimEnd s).getLast? = some c) :
    isSpace c = false := by
  have hne : s.rdropWhile isSpace ≠ [] := by
    rintro hnil
    rw [trimEnd_eq_rdropWhile, hnil] at h
    cases h
  rw [trimEnd_eq_rdropWhile, List.getLast?_eq_some_getLast hne, Option.some_inj] at h
  rw [← h]
  simpa using List.rdropWhile_last_not isSpace s hne

theorem trimEnd_of_getLast? {s : List Char} (h : ∀ c, s.getLast? = some c → isSpace c = false) : trimEnd s = s := by
  rw [trimEnd_eq_rdropWhile, List.rdropWhile_eq_self_iff]
  intro hne
  simp [h _ (List.getLast?_eq_some_getLast hne)]

theorem trimEnd_concat {c : Char} (hc : isSpace c = false) (s : List Char) : trimEnd (s ++ [c]) = s ++ [c] :=
  List.rdropWhile_concat_neg isSpace s c (by simp [hc])

theorem trimEnd_cons {c : Char} (hc : isSpace c = false) (s : List Char) : trimEnd (c :: s) = c :: trimEnd s := by
  rw [trimEnd, trimEnd, List.reverse_cons, List.dropWhile_append]
  split
  case isTrue hblank =>
    rw [List.isEmpty_iff.mp hblank, List.dropWhile_cons_of_neg (by simp [hc])]
    rfl
  case isFalse => rw [List.reverse_append, List.reverse_singleton, List.singleton_append]

/-- The text begins and ends with characters that are not white space. -/
structure IsTrimmed (s : List Char) : Prop where
  starts : ∃ c rest, s = c :: rest ∧ isSpace c = false
  ends : ∃ before c, s = before ++ [c] ∧ isSpace c = false

theorem IsTrimmed.trim_eq {s : List Char} (h : IsTrimmed s) : trim s = s := by
  obtain ⟨⟨c, rest, hstart, hc⟩, before, d, hend, hd⟩ := h
  have htrimStart : trimStart s = s := by
    rw [hstart, trimStart, List.dropWhile_cons_of_neg (by simp [hc])]
  rw [trim, htrimStart, hend, trimEnd_concat hd]

/-- Of white space nothing is left, and of any other text one that is trimmed. -/
theorem trim_eq_nil_or_isTrimmed (s : List Char) : trim s = [] ∨ IsTrimmed (trim s) := by
  cases hstart : trimStart s with
  | nil =>
    left
    rw [trim, hstart]
    rfl
  | cons c rest =>
    right
    have hc : isSpace c = false := by
      have hhead := List.head?_dropWhile_not isSpace s
      rw [← trimStart, hstart] at hhead
      simpa using hhead
    have htrim : trim s = c :: trimEnd rest := by rw [trim, hstart, trimEnd_cons hc]
    refine ⟨⟨c, trimEnd rest, htrim, hc⟩, ?_⟩
    have hlast : (trim s).getLast? = some ((trim s).getLast (by simp [htrim])) :=
      List.getLast?_eq_some_getLast _
    obtain ⟨before, hbefore⟩ := List.getLast?_eq_some_iff.mp hlast
    exact ⟨before, _, hbefore, isSpace_getLast_trimEnd hlast⟩

section
variable {p : Char → Bool}

theorem filter_dropWhile_of_disjoint {q : Char → Bool} (h : ∀ c, q c = true → p c = false) (s : List Char) :
    (s.dropWhile q).filter p = s.filter p := by
  have hfront : (s.takeWhile q).filter p = [] := by
    refine List.filter_eq_nil_iff.mpr fun c hc => ?_
    simp [h c (List.mem_takeWhile_imp hc)]
  rw [← List.takeWhile_append_dropWhile (p := q) (l := s), List.filter_append, hfront, List.nil_append,
    List.takeWhile_append_dropWhile]

theorem filter_trimEnd (h : ∀ c, isSpace c = true → p c = false) (s : List Char) :
    (trimEnd s).filter p = s.filter p := by
  rw [trimEnd, List.filter_reverse, filter_dropWhile_of_disjoint h, List.filter_reverse, List.reverse_reverse]

/-- Trimming keeps every character that is not white space. -/
theorem filter_trim (h : ∀ c, isSpace c = true → p c = false) (s : List Char) :
    (trim s).filter p = s.filter p := by
  rw [trim, filter_trimEnd h, trimStart, filter_dropWhile_of_disjoint h]

end

/-- Trimming leaves nothing of white space, and of no other text. -/
theorem trim_eq_nil_iff (s : List Char) : trim s = [] ↔ ∀ c ∈ s, isSpace c = true := by
  constructor
  · intro hnil c hc
    have hkept := filter_trim (p := fun c => !isSpace c) (by simp) s
    rw [hnil, List.filter_nil, eq_comm, List.filter_eq_nil_iff] at hkept
    simpa using hkept c hc
  · intro hspace
    obtain hnil | htrimmed := trim_eq_nil_or_isTrimmed s
    · exact hnil
    · obtain ⟨c, rest, hstart, hc⟩ := htrimmed.starts
      have hmem : c ∈ s := mem_of_mem_trim (by rw [hstart]; exact List.mem_cons_self ..)
      rw [hspace c hmem] at hc
      cases hc

/-! ## §2 Lines of a text that is trimmed -/

theorem splitLines_eq_splitOn (s : List Char) : splitLines s = s.splitOn '\n' := by
  induction s with
  | nil => rfl
  | cons c rest ih =>
    rw [splitLines, ih, List.splitOn, List.splitOn, List.splitOnP_cons_eq_if_modifyHead]
    simp only [beq_iff_eq]

theorem splitLines_concat {c : Char} (hc : c ≠ '\n') (s : List Char) :
    ∃ ps p, splitLines (s ++ [c]) = ps ++ [p ++ [c]] := by
  induction s with
  | nil => exact ⟨[], [], by rw [List.nil_append, splitLines, if_neg hc]; rfl⟩
  | cons d s ih =>
    obtain ⟨ps, p, hsplit⟩ := ih
    rw [List.cons_append, splitLines, hsplit]
    split
    · exact ⟨[] :: ps, p, rfl⟩
    · cases ps with
      | nil => exact ⟨[], d :: p, rfl⟩
      | cons q ps => exact ⟨(d :: q) :: ps, p, rfl⟩

/-- Without carriage returns, and with something on the last line, the lines are the pieces between line feeds. -/
theorem lines_eq_splitLines {s : List Char} (hreturn : '\r' ∉ s) {before : List Char} {c : Char}
    (hlast : s = before ++ [c]) (hc : c ≠ '\n') : lines s = splitLines s := by
  obtain ⟨ps, p, hsplit⟩ := splitLines_concat hc before
  rw [← hlast] at hsplit
  have hpieces : ps.map dropReturn = ps := by
    refine (List.map_congr_left fun q hq => ?_).trans ps.map_id
    refine dropReturn_of_not_mem fun hmem => hreturn ?_
    exact (mem_of_mem_splitLines (by rw [hsplit]; exact List.mem_append_left _ hq) hmem).1
  rw [lines, hsplit, List.dropLast_concat, List.getLast?_concat, hpieces]
  split
  case h_1 hnone => cases hnone
  case h_2 hnil => simp at hnil
  case h_3 last hne heq => rw [← Option.some_inj.mp heq]

section
variable {p : Char → Bool}

theorem filter_dropReturn (h : p '\r' = false) (l : List Char) : (dropReturn l).filter p = l.filter p := by
  rw [dropReturn]
  split
  case isFalse => rfl
  case isTrue hlast =>
    obtain ⟨k, rfl⟩ := List.getLast?_eq_some_iff.mp hlast
    rw [List.dropLast_concat, List.filter_append, List.filter_singleton, h, cond_false, List.append_nil]

theorem filter_flatten_splitLines (h : p '\n' = false) (s : List Char) :
    (splitLines s).flatten.filter p = s.filter p := by
  induction s with
  | nil => rfl
  | cons c s ih =>
    obtain ⟨q, qs, hq⟩ := List.exists_cons_of_ne_nil (splitLines_ne_nil s)
    by_cases hc : c = '\n'
    · rw [splitLines, if_pos hc, List.flatten_cons, List.nil_append, ih, hc, List.filter_cons_of_neg (by simp [h])]
    · rw [splitLines_cons_of_ne hc hq, List.flatten_cons, List.cons_append, ← List.flatten_cons, ← hq,
        List.filter_cons, List.filter_cons, ih]

/-- The lines hold every character but those that end them. -/
theorem filter_flatten_lines (hfeed : p '\n' = false) (hreturn : p '\r' = false) (s : List Char) :
    (lines s).flatten.filter p = s.filter p := by
  have hended (ls : List (List Char)) :
      (ls.map dropReturn).flatten.filter p = ls.flatten.filter p := by
    rw [List.filter_flatten, List.filter_flatten, List.map_map]
    exact congrArg List.flatten (List.map_congr_left fun l _ => filter_dropReturn hreturn l)
  obtain hnil | ⟨ps, last, hsplit⟩ := (splitLines s).eq_nil_or_concat
  · exact absurd hnil (splitLines_ne_nil s)
  rw [List.concat_eq_append] at hsplit
  rw [← filter_flatten_splitLines hfeed s, lines, hsplit, List.dropLast_concat, List.getLast?_concat]
  cases last with
  | nil => simp [hended]
  | cons c l => simp [hended]

end

end Text

namespace Source

/-! ## §3 What the passes leave as it is -/

theorem joinReturns_of_return_notMem {s : List Char} (h : '\r' ∉ s) : joinReturns s = s := by
  fun_induction joinReturns s with
  | case1 rest ih => exact absurd (List.mem_cons_self ..) h
  | case2 c rest hpair ih => rw [ih (List.not_mem_of_not_mem_cons h)]
  | case3 => rfl

theorem joinReturns_of_feed_notMem {s : List Char} (h : '\n' ∉ s) : joinReturns s = s := by
  fun_induction joinReturns s with
  | case1 rest ih => exact absurd (List.mem_cons_of_mem _ (List.mem_cons_self ..)) h
  | case2 c rest hpair ih => rw [ih (List.not_mem_of_not_mem_cons h)]
  | case3 => rfl

theorem docChar_of_not_isControl {c : Char} (h : Text.isControl c = true → c = '\n' ∨ c = '\t') :
    docChar c = c := by
  rw [docChar]
  split_ifs with hreturn hkeep hcontrol
  · subst hreturn
    exact absurd (h (by decide)) (by decide)
  · rfl
  · exact absurd (h hcontrol) (by simpa using hkeep)
  · rfl

theorem return_notMem_map_docChar (s : List Char) : '\r' ∉ s.map docChar := by
  intro hmem
  obtain ⟨c, -, hc⟩ := List.mem_map.mp hmem
  have hkept := isControl_docChar (c := c) (by rw [hc]; decide)
  rw [hc] at hkept
  exact absurd hkept (by decide)

/-! ## §4 The normal form -/

/-- The lines that a description can become: no control character but the tab in them, no white space behind
one, and nothing empty or blank at either end. -/
structure IsNormal (ls : List Line) : Prop where
  plain : ∀ l ∈ ls, Plain l
  trimmed : ∀ l ∈ ls, ∀ c, l.getLast? = some c → Text.isSpace c = false
  first : ∀ l, ls.head? = some l → ∃ c rest, l = c :: rest ∧ Text.isSpace c = false
  last : ∀ l, ls.getLast? = some l → l ≠ []

/-- The lines of a description are the pieces of a text that is trimmed, each without white space behind it. -/
theorem docLines_eq (d : List Char) :
    docLines d = [] ∨ ∃ text, Text.IsTrimmed text ∧ docLines d = (Text.splitLines text).map Text.trimEnd := by
  obtain hnil | htrimmed := Text.trim_eq_nil_or_isTrimmed ((joinReturns d).map docChar)
  · left
    rw [docLines, hnil]
    rfl
  · right
    refine ⟨_, htrimmed, ?_⟩
    obtain ⟨before, c, hend, hc⟩ := htrimmed.ends
    have hreturn : '\r' ∉ Text.trim ((joinReturns d).map docChar) :=
      fun hmem => return_notMem_map_docChar _ (Text.mem_of_mem_trim hmem)
    rw [docLines, Text.lines_eq_splitLines hreturn hend (Text.ne_newline_of_not_isSpace hc)]

theorem isNormal_docLines (d : List Char) : IsNormal (docLines d) where
  plain _ hl := plain_docLines hl
  trimmed l hl c hc := by
    obtain ⟨line, -, rfl⟩ := List.mem_map.mp hl
    exact Text.isSpace_getLast_trimEnd hc
  first l hl := by
    obtain hnil | ⟨text, htrimmed, heq⟩ := docLines_eq d
    · rw [hnil] at hl
      cases hl
    obtain ⟨c, rest, rfl, hc⟩ := htrimmed.starts
    obtain ⟨p, ps, hsplit⟩ := List.exists_cons_of_ne_nil (Text.splitLines_ne_nil rest)
    rw [heq, Text.splitLines_cons_of_ne (Text.ne_newline_of_not_isSpace hc) hsplit, List.map_cons,
      List.head?_cons, Option.some_inj] at hl
    exact ⟨c, _, hl.symm.trans (Text.trimEnd_cons hc p), hc⟩
  last l hl := by
    obtain hnil | ⟨text, htrimmed, heq⟩ := docLines_eq d
    · rw [hnil] at hl
      cases hl
    obtain ⟨before, c, rfl, hc⟩ := htrimmed.ends
    obtain ⟨ps, p, hsplit⟩ := Text.splitLines_concat (Text.ne_newline_of_not_isSpace hc) before
    rw [heq, hsplit, List.map_append, List.map_singleton, List.getLast?_concat, Option.some_inj,
      Text.trimEnd_concat hc] at hl
    simp [← hl]

/-! ## §5 Lines in normal form, joined -/

theorem mem_intercalate {c : Char} {ls : List Line} (h : c ∈ ['\n'].intercalate ls) :
    c = '\n' ∨ ∃ l ∈ ls, c ∈ l := by
  induction ls with
  | nil => cases h
  | cons l ls ih =>
    by_cases hne : ls = []
    · rw [hne, List.intercalate_singleton] at h
      exact .inr ⟨l, List.mem_cons_self .., h⟩
    rw [List.intercalate_cons_of_ne_nil hne, List.append_assoc] at h
    rcases List.mem_append.mp h with hl | htail
    · exact .inr ⟨l, List.mem_cons_self .., hl⟩
    rcases List.mem_cons.mp htail with hfeed | hls
    · exact .inl hfeed
    obtain hfeed | ⟨k, hk, hc⟩ := ih hls
    · exact .inl hfeed
    · exact .inr ⟨k, List.mem_cons_of_mem _ hk, hc⟩

theorem exists_intercalate_concat (ls : List Line) (l : Line) :
    ∃ before, ['\n'].intercalate (ls ++ [l]) = before ++ l := by
  induction ls with
  | nil => exact ⟨[], by rw [List.nil_append, List.intercalate_singleton, List.nil_append]⟩
  | cons k ls ih =>
    obtain ⟨before, hbefore⟩ := ih
    refine ⟨k ++ ['\n'] ++ before, ?_⟩
    rw [List.cons_append, List.intercalate_cons_of_ne_nil (by simp), hbefore, List.append_assoc (k ++ _)]

theorem exists_intercalate_cons (l : Line) (ls : List Line) :
    ∃ after, ['\n'].intercalate (l :: ls) = l ++ after := by
  by_cases hne : ls = []
  · exact ⟨[], by rw [hne, List.intercalate_singleton, List.append_nil]⟩
  · exact ⟨_, by rw [List.intercalate_cons_of_ne_nil hne, List.append_assoc]⟩

namespace IsNormal
variable {ls : List Line}

theorem isTrimmed_intercalate (h : IsNormal ls) (hne : ls ≠ []) : Text.IsTrimmed (['\n'].intercalate ls) where
  starts := by
    obtain ⟨l, ls, rfl⟩ := List.exists_cons_of_ne_nil hne
    obtain ⟨c, rest, rfl, hc⟩ := h.first l rfl
    obtain ⟨after, hafter⟩ := exists_intercalate_cons (c :: rest) ls
    exact ⟨c, rest ++ after, hafter, hc⟩
  ends := by
    obtain ⟨before, l, rfl⟩ : ∃ before l, ls = before ++ [l] :=
      ⟨ls.dropLast, ls.getLast hne, (List.dropLast_concat_getLast hne).symm⟩
    have hlne : l ≠ [] := h.last l List.getLast?_concat
    have hc := h.trimmed l (List.mem_append_right _ (List.mem_singleton_self l)) _
      (List.getLast?_eq_some_getLast hlne)
    obtain ⟨front, hfront⟩ := exists_intercalate_concat before l
    refine ⟨front ++ l.dropLast, l.getLast hlne, ?_, hc⟩
    rw [hfront, List.append_assoc, List.dropLast_concat_getLast]

/-- No pass over its characters changes a text that joins plain lines. -/
theorem map_docChar_intercalate (h : IsNormal ls) :
    (joinReturns (['\n'].intercalate ls)).map docChar = ['\n'].intercalate ls := by
  have hcontrol : ∀ c ∈ ['\n'].intercalate ls, Text.isControl c = true → c = '\n' ∨ c = '\t' := by
    intro c hc hcontrol
    obtain hfeed | ⟨l, hl, hcl⟩ := mem_intercalate hc
    · exact .inl hfeed
    · exact .inr (h.plain l hl c hcl hcontrol)
  have hreturn : '\r' ∉ ['\n'].intercalate ls :=
    fun hmem => absurd (hcontrol '\r' hmem (by decide)) (by decide)
  rw [joinReturns_of_return_notMem hreturn]
  exact (List.map_congr_left fun c hc => docChar_of_not_isControl (hcontrol c hc)).trans (List.map_id _)

/-- **Lines in normal form are the lines of the description that joins them.** -/
theorem docLines_intercalate (h : IsNormal ls) : docLines (['\n'].intercalate ls) = ls := by
  by_cases hne : ls = []
  · rw [hne]
    rfl
  have htrimmed := h.isTrimmed_intercalate hne
  obtain ⟨before, c, hend, hc⟩ := htrimmed.ends
  have hreturn : '\r' ∉ ['\n'].intercalate ls := by
    rw [← h.map_docChar_intercalate]
    exact return_notMem_map_docChar _
  have hpieces : Text.splitLines (['\n'].intercalate ls) = ls := by
    rw [Text.splitLines_eq_splitOn]
    exact List.splitOn_intercalate '\n' (fun l hl => (h.plain l hl).newline_notMem) hne
  have hkept : ls.map Text.trimEnd = ls :=
    (List.map_congr_left fun l hl => Text.trimEnd_of_getLast? (h.trimmed l hl)).trans (List.map_id _)
  rw [docLines, h.map_docChar_intercalate, htrimmed.trim_eq,
    Text.lines_eq_splitLines hreturn hend (Text.ne_newline_of_not_isSpace hc), hpieces, hkept]

end IsNormal

/-! ## §6 What the lines keep, and what they do not depend on -/

/-- The character shows: it is no control character and no white space. -/
def isVisible (c : Char) : Bool := !Text.isControl c && !Text.isSpace c

theorem isVisible_of_isSpace {c : Char} (h : Text.isSpace c = true) : isVisible c = false := by
  simp [isVisible, h]

theorem filter_joinReturns (s : List Char) : (joinReturns s).filter isVisible = s.filter isVisible := by
  fun_induction joinReturns s with
  | case1 rest ih =>
    have hreturn : isVisible '\r' = false := by decide
    have hfeed : isVisible '\n' = false := by decide
    simp [hreturn, hfeed, ih]
  | case2 c rest hpair ih => rw [List.filter_cons, List.filter_cons, ih]
  | case3 => rfl

theorem isVisible_docChar_of_isControl {c : Char} (h : Text.isControl c = true) : isVisible (docChar c) = false := by
  rw [docChar]
  split_ifs with hreturn hkeep
  · decide
  · simp [isVisible, h]
  · decide

theorem filter_map_docChar (s : List Char) : (s.map docChar).filter isVisible = s.filter isVisible := by
  induction s with
  | nil => rfl
  | cons c s ih =>
    rw [List.map_cons]
    by_cases hcontrol : Text.isControl c = true
    · rw [List.filter_cons_of_neg (by simp [isVisible_docChar_of_isControl hcontrol]),
        List.filter_cons_of_neg (by simp [isVisible, hcontrol]), ih]
    · rw [docChar_of_not_isControl fun h => absurd h hcontrol, List.filter_cons, List.filter_cons, ih]

/-- The lines hold the characters of the description that show, all of them and in their order. -/
theorem filter_flatten_docLines (d : List Char) : (docLines d).flatten.filter isVisible = d.filter isVisible := by
  have htrimEnd (ls : List Line) : (ls.map Text.trimEnd).flatten.filter isVisible = ls.flatten.filter isVisible := by
    rw [List.filter_flatten, List.filter_flatten, List.map_map]
    exact congrArg List.flatten
      (List.map_congr_left fun l _ => Text.filter_trimEnd (fun _ => isVisible_of_isSpace) l)
  rw [docLines, htrimEnd, Text.filter_flatten_lines (by decide) (by decide),
    Text.filter_trim (fun _ => isVisible_of_isSpace), filter_map_docChar, filter_joinReturns]

/-- A description has no lines exactly if nothing of it shows. -/
theorem docLines_eq_nil_iff (d : List Char) : docLines d = [] ↔ ∀ c ∈ d, isVisible c = false := by
  constructor
  · intro hnil c hc
    have hkept := filter_flatten_docLines d
    rw [hnil, List.flatten_nil, List.filter_nil, eq_comm, List.filter_eq_nil_iff] at hkept
    simpa using hkept c hc
  · intro hhidden
    cases hlines : docLines d with
    | nil => rfl
    | cons l ls =>
      -- A first line begins with a character that shows, and that one is a character of the description.
      have hnormal := isNormal_docLines d
      rw [hlines] at hnormal
      obtain ⟨c, rest, rfl, hspace⟩ := hnormal.first l rfl
      have hcontrol : Text.isControl c = false := by
        by_contra hcontrol
        obtain rfl : c = '\t' :=
          hnormal.plain _ (List.mem_cons_self ..) c (List.mem_cons_self ..) (by simpa using hcontrol)
        exact absurd hspace (by decide)
      have hvisible : isVisible c = true := by simp [isVisible, hspace, hcontrol]
      have hmem : c ∈ (docLines d).flatten.filter isVisible := by simp [hlines, hvisible]
      rw [filter_flatten_docLines] at hmem
      rw [hhidden c (List.mem_of_mem_filter hmem)] at hvisible
      cases hvisible

/-- The text with other line breaks in place of its line feeds. -/
def withBreaks (lineBreak d : List Char) : List Char := d.flatMap fun c => if c = '\n' then lineBreak else [c]

theorem joinReturns_withBreaks_pairs {d : List Char} (h : '\r' ∉ d) :
    joinReturns (withBreaks ['\r', '\n'] d) = d := by
  induction d with
  | nil => rfl
  | cons c d ih =>
    have hd := ih (List.not_mem_of_not_mem_cons h)
    rw [withBreaks, List.flatMap_cons, ← withBreaks]
    split
    case isTrue hfeed =>
      rw [List.cons_append, List.singleton_append, joinReturns, hd, hfeed]
    case isFalse hfeed =>
      have hc : c ≠ '\r' := (List.ne_of_not_mem_cons h).symm
      rw [List.singleton_append, joinReturns, hd]
      intro rest heq
      exact absurd heq hc

theorem map_docChar_withBreaks_returns (d : List Char) :
    (joinReturns (withBreaks ['\r'] d)).map docChar = d.map docChar := by
  have hfeed : '\n' ∉ withBreaks ['\r'] d := by
    intro hmem
    obtain ⟨c, -, hc⟩ := List.mem_flatMap.mp hmem
    split at hc
    case isTrue => exact absurd hc (by decide)
    case isFalse hne => exact hne (List.mem_singleton.mp hc).symm
  rw [joinReturns_of_feed_notMem hfeed, withBreaks, List.map_flatMap, List.map_eq_flatMap]
  refine List.flatMap_congr fun c _ => ?_
  split
  case isTrue heq => rw [heq]; rfl
  case isFalse => rfl

/-- **Which characters break the lines of a description does not matter.** -/
theorem docLines_withBreaks {d : List Char} (h : '\r' ∉ d) :
    docLines (withBreaks ['\r', '\n'] d) = docLines d ∧ docLines (withBreaks ['\r'] d) = docLines d := by
  refine ⟨?_, ?_⟩
  · rw [docLines, joinReturns_withBreaks_pairs h, docLines, joinReturns_of_return_notMem h]
  · rw [docLines, map_docChar_withBreaks_returns, docLines, joinReturns_of_return_notMem h]

/-! ## §7 The lines of a description -/

/-- **The lines of a description are its normal form.** They are in normal form and hold the characters that show,
all of them and in their order; the lines of their join are themselves; and a description with pairs of carriage
return and line feed, or carriage returns alone, in place of its line feeds has the same lines. -/
theorem docLines_normalForm (d : List Char) :
    IsNormal (docLines d) ∧
      (docLines d).flatten.filter isVisible = d.filter isVisible ∧
      docLines (['\n'].intercalate (docLines d)) = docLines d ∧
      ('\r' ∉ d →
        docLines (withBreaks ['\r', '\n'] d) = docLines d ∧ docLines (withBreaks ['\r'] d) = docLines d) :=
  ⟨isNormal_docLines d, filter_flatten_docLines d, (isNormal_docLines d).docLines_intercalate, docLines_withBreaks⟩

theorem docLines_normalForm_of_two_lines :
    '\r' ∉ [' ', 'a', '\n', 'b', '\x07'] ∧
      docLines (withBreaks ['\r'] [' ', 'a', '\n', 'b', '\x07']) = [['a'], ['b']] := by
  have hreturn : '\r' ∉ [' ', 'a', '\n', 'b', '\x07'] := by decide
  obtain ⟨-, -, -, hbreaks⟩ := docLines_normalForm [' ', 'a', '\n', 'b', '\x07']
  exact ⟨hreturn, (hbreaks hreturn).2.trans (by decide)⟩

end Source

end RouteStubs
