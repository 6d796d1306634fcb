import Mathlib.Tactic.SplitIfs
import RouteStubs.HandlerName
import RouteStubs.Proofs.Text.Words
/-!
Which handlers display names give.

A handler is made of the letters and digits of a display name, where the first character of each word is put in upper
case beforehand. So all that decides what a handler begins with is the first word:

* `handlerChars_of_isLetter` — a display name that begins with a letter gives a handler that begins with a capital.
* `handlerChars_eq_nil` — a display name without letters and digits gives the empty handler, unless one of its words
  begins with a character whose upper case is a letter.

`isIdentifierChars_iff` says which handlers are identifiers.
-/

namespace RouteStubs

namespace Text

/-! ## §1 Letters and their upper case -/

/-- The letters `A` to `Z`. -/
def isCapital (c : Char) : Bool := 'A' ≤ c && c ≤ 'Z'

/-- The letters `a` to `z`. -/
def isSmall (c : Char) : Bool := 'a' ≤ c && c ≤ 'z'

theorem isCapital_iff {c : Char} : isCapital c = true ↔ 65 ≤ c.toNat ∧ c.toNat ≤ 90 := by
  simp [isCapital, Char.le_def, UInt32.le_iff_toNat_le]

theorem isSmall_iff {c : Char} : isSmall c = true ↔ 97 ≤ c.toNat ∧ c.toNat ≤ 122 := by
  simp [isSmall, Char.le_def, UInt32.le_iff_toNat_le]

theorem isDigit_iff {c : Char} : isDigit c = true ↔ 48 ≤ c.toNat ∧ c.toNat ≤ 57 := by
  simp [isDigit, Char.le_def, UInt32.le_iff_toNat_le]

theorem isLetter_eq (c : Char) : isLetter c = (isCapital c || isSmall c) := rfl

theorem upper_eq (c : Char) :
    upper c = if isSmall c then Char.ofNat (c.toNat - 32) else if c = '\u0131' then 'I'
      else if c = '\u017f' then 'S' else c := rfl

theorem isCapital_upper_of_isSmall {c : Char} (h : isSmall c = true) : isCapital (upper c) = true := by
  rw [isSmall_iff] at h
  have hvalid : (c.toNat - 32).isValidChar := Or.inl (by omega)
  have hupper : (upper c).toNat = c.toNat - 32 := by
    rw [upper_eq, if_pos (isSmall_iff.mpr h), Char.ofNat, dif_pos hvalid]
    rfl
  rw [isCapital_iff, hupper]
  omega

/-- The upper case of a letter is a capital. -/
theorem isCapital_upper {c : Char} (h : isLetter c = true) : isCapital (upper c) = true := by
  rw [isLetter_eq, Bool.or_eq_true] at h
  rcases h with hcapital | hsmall
  · have hnot : isSmall c = false := by
      rw [← Bool.not_eq_true, isSmall_iff]
      rw [isCapital_iff] at hcapital
      omega
    rw [upper_eq, if_neg (by simp [hnot])]
    split_ifs
    · rfl
    · rfl
    · exact hcapital
  · exact isCapital_upper_of_isSmall hsmall

/-- Outside ASCII only the dotless i and the long s have a letter as their upper case. -/
theorem isAlphanumeric_of_upper {c : Char} (h : isAlphanumeric (upper c) = true) :
    isAlphanumeric c = true ∨ c = '\u0131' ∨ c = '\u017f' := by
  rw [upper_eq] at h
  split_ifs at h with hsmall hdotless hlong
  · left
    simp [isAlphanumeric, isLetter_eq, hsmall]
  · exact .inr (.inl hdotless)
  · exact .inr (.inr hlong)
  · exact .inl h

theorem not_isAlphanumeric_upper {c : Char} (hc : isAlphanumeric c = false) (hdotless : c ≠ '\u0131')
    (hlong : c ≠ '\u017f') : isAlphanumeric (upper c) = false := by
  rw [← Bool.not_eq_true]
  intro h
  rcases isAlphanumeric_of_upper h with h | h | h
  · rw [hc] at h
    cases h
  · exact hdotless h
  · exact hlong h

theorem isAlphanumeric_of_isCapital {c : Char} (h : isCapital c = true) : isAlphanumeric c = true := by
  simp [isAlphanumeric, isLetter_eq, h]

theorem not_isDigit_of_isLetter {c : Char} (h : isLetter c = true) : isDigit c = false := by
  rw [← Bool.not_eq_true, isDigit_iff]
  rw [isLetter_eq, Bool.or_eq_true, isCapital_iff, isSmall_iff] at h
  omega

/-- The text starts with a digit. -/
def startsWithDigit : List Char → Bool
  | [] => false
  | c :: _ => isDigit c

theorem not_isSpace_of_isAlphanumeric {c : Char} (h : isAlphanumeric c = true) : isSpace c = false := by
  have hrange : 48 ≤ c.toNat ∧ c.toNat ≤ 122 := by
    simp only [isAlphanumeric, isLetter_eq, Bool.or_eq_true, isCapital_iff, isSmall_iff, isDigit_iff] at h
    omega
  simp only [isSpace, Bool.or_eq_false_iff, Bool.and_eq_false_iff, decide_eq_false_iff_not, beq_eq_false_iff_ne]
  omega

theorem not_isAlphanumeric_of_isSpace {c : Char} (h : isSpace c = true) : isAlphanumeric c = false := by
  rw [← Bool.not_eq_true]
  intro halphanumeric
  rw [not_isSpace_of_isAlphanumeric halphanumeric] at h
  cases h

theorem not_isSpace_of_isLetter {c : Char} (h : isLetter c = true) : isSpace c = false :=
  not_isSpace_of_isAlphanumeric (by simp [isAlphanumeric, h])

end Text

/-! ## §2 Handlers -/

theorem isAlphanumeric_of_mem_handlerChars {s : List Char} {c : Char} (h : c ∈ handlerChars s) :
    Text.isAlphanumeric c = true :=
  (List.mem_filter.mp h).2

/-- If the upper case of the first character behind white space is a letter or a digit, then the handler begins with
it. -/
theorem handlerChars_of_trimStart {s rest : List Char} {c : Char} (hs : Text.trimStart s = c :: rest)
    (hspace : Text.isSpace c = false) (hc : Text.isAlphanumeric (Text.upper c) = true) :
    ∃ others, handlerChars s = Text.upper c :: others := by
  obtain ⟨word, others, hwords⟩ := Text.words_cons_of_not_isSpace hspace rest
  rw [handlerChars, ← Text.words_trimStart, hs, hwords, List.flatMap_cons, titled, List.cons_append,
    List.filter_cons_of_pos hc]
  exact ⟨_, rfl⟩

/-- A display name that begins with a letter gives a handler that begins with a capital. -/
theorem handlerChars_of_isLetter {s rest : List Char} {c : Char} (hs : Text.trimStart s = c :: rest)
    (hc : Text.isLetter c = true) : ∃ d ds, handlerChars s = d :: ds ∧ Text.isCapital d = true := by
  have hcapital : Text.isCapital (Text.upper c) = true := Text.isCapital_upper hc
  obtain ⟨others, hothers⟩ := handlerChars_of_trimStart hs (Text.not_isSpace_of_isLetter hc)
    (Text.isAlphanumeric_of_isCapital hcapital)
  exact ⟨_, _, hothers, hcapital⟩

/-- A display name without letters and digits gives the empty handler, unless a word begins with a character whose
upper case is a letter. -/
theorem handlerChars_eq_nil {s : List Char} (hs : ∀ c ∈ s, Text.isAlphanumeric c = false)
    (hwords : ∀ w ∈ Text.words s, ∀ c ∈ w.head?, c ≠ '\u0131' ∧ c ≠ '\u017f') : handlerChars s = [] := by
  rw [handlerChars, List.filter_eq_nil_iff]
  intro c hc hkept
  obtain ⟨w, hw, hcw⟩ := List.mem_flatMap.mp hc
  cases w with
  | nil => cases hcw
  | cons d rest =>
    have hnone : ∀ c ∈ d :: rest, Text.isAlphanumeric c = false := fun c hc => hs c (Text.mem_of_mem_words hw hc)
    rcases List.mem_cons.mp hcw with rfl | hrest
    · obtain ⟨hdotless, hlong⟩ := hwords _ hw d rfl
      rw [Text.not_isAlphanumeric_upper (hnone d (List.mem_cons_self ..)) hdotless hlong] at hkept
      cases hkept
    · rw [hnone c (List.mem_cons_of_mem _ hrest)] at hkept
      cases hkept

/-- Letters and digits form an identifier unless there are none or the first is a digit. -/
theorem isIdentifierChars_iff {s : List Char} (h : ∀ c ∈ s, Text.isAlphanumeric c = true) :
    isIdentifierChars s = true ↔ s ≠ [] ∧ Text.startsWithDigit s = false := by
  cases s with
  | nil => simp [isIdentifierChars]
  | cons c rest =>
    obtain ⟨hc, hrest⟩ := List.forall_mem_cons.mp h
    have hall : rest.all continuesIdentifier = true :=
      List.all_eq_true.mpr fun d hd => by simp [continuesIdentifier, hrest d hd]
    have hstart : startsIdentifier c = !Text.isDigit c := by
      cases hletter : Text.isLetter c with
      | true => simp [startsIdentifier, hletter, Text.not_isDigit_of_isLetter hletter]
      | false =>
        have hdigit : Text.isDigit c = true := by simpa [Text.isAlphanumeric, hletter] using hc
        have hunderscore : c ≠ '_' := by
          intro heq
          subst heq
          exact absurd hdigit (by decide)
        simp [startsIdentifier, hletter, hdigit, hunderscore]
    simp [isIdentifierChars, hall, hstart, Text.startsWithDigit]

end RouteStubs
