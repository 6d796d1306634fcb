import Mathlib.Tactic.SplitIfs
import RouteStubs.HandlerName
import RouteStubs.Proofs.Text.Lines
import RouteStubs.Source.Layout
/-!
Lines that a reader of source code cannot take for more than one line.

A line is `Plain` if its only control characters are tabs. Whatever the text of a description or of a path
is, the lines that comments are made of are plain, and so are identifiers and the names of verbs.
-/

namespace RouteStubs

/-! ## §1 Control characters and identifiers -/

theorem not_isControl_of_continuesIdentifier {c : Char} (h : continuesIdentifier c = true) :
    Text.isControl c = false := by
  simp only [continuesIdentifier, Text.isAlphanumeric, Text.isLetter, Text.isDigit, Bool.or_eq_true,
    Bool.and_eq_true, decide_eq_true_eq, Char.le_def, UInt32.le_iff_toNat_le] at h
  have hrange : 0x20 ≤ c.toNat ∧ c.toNat < 0x7F := by
    rcases h with ((⟨hlo, hhi⟩ | ⟨hlo, hhi⟩) | ⟨hlo, hhi⟩) | rfl
    · exact ⟨Nat.le_trans (by decide) hlo, Nat.lt_of_le_of_lt hhi (by decide)⟩
    · exact ⟨Nat.le_trans (by decide) hlo, Nat.lt_of_le_of_lt hhi (by decide)⟩
    · exact ⟨Nat.le_trans (by decide) hlo, Nat.lt_of_le_of_lt hhi (by decide)⟩
    · decide
  simp only [Text.isControl, Bool.or_eq_false_iff, decide_eq_false_iff_not, Bool.and_eq_false_iff]
  omega

theorem continuesIdentifier_of_mem {s : List Char} (h : isIdentifierChars s = true) {c : Char}
    (hc : c ∈ s) : continuesIdentifier c = true := by
  cases s with
  | nil => cases hc
  | cons d rest =>
    obtain ⟨hd, hrest⟩ : startsIdentifier d = true ∧ ∀ c ∈ rest, continuesIdentifier c = true := by
      simpa [isIdentifierChars] using h
    rcases List.mem_cons.mp hc with rfl | hc
    · have hstart : Text.isLetter c = true ∨ c = '_' := by simpa [startsIdentifier] using hd
      rcases hstart with hletter | rfl
      · simp [continuesIdentifier, Text.isAlphanumeric, hletter]
      · decide
    · exact hrest c hc

namespace Source

/-! ## §2 Plain lines -/

/-- The only control characters of the line are tabs. -/
def Plain (l : Line) : Prop := ∀ c ∈ l, Text.isControl c = true → c = '\t'

instance (l : Line) : Decidable (Plain l) :=
  List.decidableBAll (fun c => Text.isControl c = true → c = '\t') l

theorem plain_nil : Plain [] := by decide

theorem Plain.append {l k : Line} (hl : Plain l) (hk : Plain k) : Plain (l ++ k) := by
  intro c hc
  rcases List.mem_append.mp hc with hc | hc
  · exact hl c hc
  · exact hk c hc

-- A literal is a list of characters in disguise, and checking the list is far cheaper than decoding the
-- literal.
theorem plain_literal {l : Line} (h : Plain l) : Plain (String.ofList l).toList := by
  rwa [String.toList_ofList]

theorem Plain.newline_notMem {l : Line} (h : Plain l) : '\n' ∉ l :=
  fun hmem => absurd (h '\n' hmem (by decide)) (by decide)

theorem plain_of_continuesIdentifier {l : Line} (h : ∀ c ∈ l, continuesIdentifier c = true) :
    Plain l := by
  intro c hc hcontrol
  rw [not_isControl_of_continuesIdentifier (h c hc)] at hcontrol
  cases hcontrol

theorem plain_verb (verb : Verb) : Plain verb.name.toList := by
  cases verb <;> decide

/-! ## §3 Paths and descriptions -/

theorem plain_onOneLine (text : List Char) : Plain (onOneLine text) := by
  intro c hc hcontrol
  obtain ⟨d, -, rfl⟩ := List.mem_map.mp hc
  split at hcontrol
  · exact absurd hcontrol (by decide)
  · contradiction

theorem isControl_docChar {c : Char} (h : Text.isControl (docChar c) = true) :
    docChar c = '\n' ∨ docChar c = '\t' := by
  rw [docChar] at h ⊢
  split_ifs at h ⊢ with hreturn hkeep hcontrol
  · exact .inl rfl
  · simpa using hkeep
  · exact absurd h (by decide)
  · contradiction

/-- No break of a description, and no control character but the tab, is left in its lines. -/
theorem plain_docLines {description l : List Char} (hl : l ∈ docLines description) : Plain l := by
  intro c hc hcontrol
  obtain ⟨line, hline, rfl⟩ := List.mem_map.mp hl
  obtain ⟨hmem, hne⟩ := Text.mem_of_mem_lines hline (Text.mem_of_mem_trimEnd hc)
  obtain ⟨d, -, rfl⟩ := List.mem_map.mp (Text.mem_of_mem_trim hmem)
  exact (isControl_docChar hcontrol).resolve_left hne

end Source

end RouteStubs
