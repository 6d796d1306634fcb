import RouteStubs.Text.Space
/-!
The words of a text.

A text is taken apart from its end, one character at a time (`splitWords`), so that each lemma here is one step of
that recursion or an induction over it. `flatten_words` says what the words hold, and `words_trimStart` and
`words_cons_of_not_isSpace` say where the first one begins. White space cuts a text: `words_append_space` takes the
words on its two sides apart, whatever the sides are.
-/

namespace RouteStubs.Text

theorem words_eq (s : List Char) : words s = consWord (splitWords s).1 (splitWords s).2 := rfl

theorem splitWords_of_isSpace {c : Char} (h : isSpace c = true) (s : List Char) :
    splitWords (c :: s) = ([], words s) := by
  simp [splitWords, h, words_eq]

theorem splitWords_of_not_isSpace {c : Char} (h : isSpace c = false) (s : List Char) :
    splitWords (c :: s) = (c :: (splitWords s).1, (splitWords s).2) := by
  simp [splitWords, h]

theorem splitWords_eq_nil_iff (s : List Char) : splitWords s = ([], []) ↔ ∀ c ∈ s, isSpace c = true := by
  induction s with
  | nil => simp [splitWords]
  | cons c s ih =>
    rw [List.forall_mem_cons, ← ih, splitWords]
    obtain ⟨word, words⟩ := splitWords s
    cases hc : isSpace c <;> cases word <;> simp [consWord]

/-- A text has no words exactly if it is white space. -/
theorem words_eq_nil_iff (s : List Char) : words s = [] ↔ ∀ c ∈ s, isSpace c = true := by
  rw [← splitWords_eq_nil_iff, words]
  obtain ⟨word, words⟩ := splitWords s
  cases word <;> simp [consWord]

theorem words_cons_of_isSpace {c : Char} (h : isSpace c = true) (s : List Char) : words (c :: s) = words s := by
  rw [words_eq, splitWords_of_isSpace h]
  rfl

/-- White space in front of a text does not matter to its words. -/
theorem words_trimStart (s : List Char) : words (trimStart s) = words s := by
  induction s with
  | nil => rfl
  | cons c s ih =>
    cases hc : isSpace c with
    | true => rw [trimStart, List.dropWhile_cons_of_pos hc, ← trimStart, ih, words_cons_of_isSpace hc]
    | false => rw [trimStart, List.dropWhile_cons_of_neg (by simp [hc])]

/-- A text that does not begin with white space begins with its first word. -/
theorem words_cons_of_not_isSpace {c : Char} (h : isSpace c = false) (s : List Char) :
    ∃ rest others, words (c :: s) = (c :: rest) :: others := by
  rw [words_eq, splitWords_of_not_isSpace h]
  exact ⟨_, _, rfl⟩

theorem flatten_consWord (word : List Char) (words : List (List Char)) :
    (consWord word words).flatten = word ++ words.flatten := by
  cases word <;> simp [consWord]

/-- The words hold the characters that are not white space, all of them and in their order. -/
theorem flatten_words (s : List Char) : (words s).flatten = s.filter fun c => !isSpace c := by
  have hsplit : (splitWords s).1 ++ (splitWords s).2.flatten = s.filter fun c => !isSpace c := by
    induction s with
    | nil => rfl
    | cons c s ih =>
      rw [splitWords]
      cases hc : isSpace c <;> simp [hc, flatten_consWord, ih]
  rw [words, flatten_consWord, hsplit]

theorem consWord_append (word : List Char) (words others : List (List Char)) :
    consWord word (words ++ others) = consWord word words ++ others := by
  cases word <;> simp [consWord]

theorem words_append_of_isSpace {w : List Char} (h : ∀ c ∈ w, isSpace c = true) (s : List Char) :
    words (w ++ s) = words s := by
  induction w with
  | nil => rfl
  | cons c w ih =>
    obtain ⟨hc, hw⟩ := List.forall_mem_cons.mp h
    rw [List.cons_append, words_cons_of_isSpace hc, ih hw]

/-- In front of white space the text `s` is taken apart as it is alone, for no word of it goes on behind that. -/
theorem splitWords_append_space {w : List Char} (hw : w ≠ []) (h : ∀ c ∈ w, isSpace c = true) (s t : List Char) :
    splitWords (s ++ w ++ t) = ((splitWords s).1, (splitWords s).2 ++ words t) := by
  induction s with
  | nil =>
    cases w with
    | nil => exact absurd rfl hw
    | cons c w =>
      obtain ⟨hc, hrest⟩ := List.forall_mem_cons.mp h
      have hwords : words (w ++ t) = words t := words_append_of_isSpace hrest t
      rw [List.nil_append, List.cons_append, splitWords_of_isSpace hc, hwords]
      rfl
  | cons c s ih =>
    rw [List.cons_append, List.cons_append]
    cases hc : isSpace c with
    | true => simp only [splitWords_of_isSpace hc, words_eq (s ++ w ++ t), ih, consWord_append, words_eq s]
    | false => simp only [splitWords_of_not_isSpace hc, ih]

/-- The words of a text with white space in it are the words before and the words after that. -/
theorem words_append_space {w : List Char} (hw : w ≠ []) (h : ∀ c ∈ w, isSpace c = true) (s t : List Char) :
    words (s ++ w ++ t) = words s ++ words t := by
  rw [words_eq, splitWords_append_space hw h, words_eq s, consWord_append]

/-- A text without white space is a single word. -/
theorem words_of_no_space {s : List Char} (hs : s ≠ []) (h : ∀ c ∈ s, isSpace c = false) : words s = [s] := by
  have hsplit : splitWords s = (s, []) := by
    clear hs
    induction s with
    | nil => rfl
    | cons c s ih =>
      obtain ⟨hc, hrest⟩ := List.forall_mem_cons.mp h
      rw [splitWords_of_not_isSpace hc, ih hrest]
  simp [words_eq, hsplit, consWord, hs]

theorem ne_nil_of_mem_consWord {word : List Char} {words : List (List Char)} (h : ∀ v ∈ words, v ≠ []) :
    ∀ v ∈ consWord word words, v ≠ [] := by
  cases word with
  | nil => exact h
  | cons c word => exact List.forall_mem_cons.mpr ⟨List.cons_ne_nil c word, h⟩

theorem ne_nil_of_mem_splitWords (s : List Char) : ∀ v ∈ (splitWords s).2, v ≠ [] := by
  induction s with
  | nil => simp [splitWords]
  | cons c s ih =>
    cases hc : isSpace c with
    | true =>
      rw [splitWords_of_isSpace hc]
      exact ne_nil_of_mem_consWord ih
    | false =>
      rw [splitWords_of_not_isSpace hc]
      exact ih

/-- No word is empty. -/
theorem ne_nil_of_mem_words {s w : List Char} (hw : w ∈ words s) : w ≠ [] :=
  ne_nil_of_mem_consWord (ne_nil_of_mem_splitWords s) w hw

theorem mem_and_not_isSpace_of_mem_words {s w : List Char} (hw : w ∈ words s) {c : Char} (hc : c ∈ w) :
    c ∈ s ∧ isSpace c = false := by
  have hmem : c ∈ (words s).flatten := List.mem_flatten.mpr ⟨w, hw, hc⟩
  rw [flatten_words] at hmem
  simpa using List.mem_filter.mp hmem

theorem mem_of_mem_words {s w : List Char} (hw : w ∈ words s) {c : Char} (hc : c ∈ w) : c ∈ s :=
  (mem_and_not_isSpace_of_mem_words hw hc).1

end RouteStubs.Text
