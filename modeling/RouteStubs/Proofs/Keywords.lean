import RouteStubs.Language
import RouteStubs.Proofs.Raml.Members
import RouteStubs.Proofs.Text.FullCase
/-!
Words that name a verb or a language, in any letter case.

A text is put in lower case before it is looked up, and that is more than the letters of ASCII: the Kelvin sign becomes
a `k`, and the dotted capital I an `i` with a dot behind it. But no keyword has a `k`, none has such a dot, and nothing
else outside ASCII becomes an ASCII letter. So the keywords are plain, and whether a text is one is decided by its ASCII
letters alone (`Text.Lowered.eq_of_plain`).

`ofText?_ascii` says this of verbs and languages together.
-/

namespace RouteStubs

open Text (Lowered lowered_lowercase lowered_lowerText)

/-- The spellings of a language's name, in small letters. -/
def Language.spellings : Language → List String
  | .go => ["go", "golang"]
  | .rust => ["rust", "rs"]

/-! ## §1 Looking up -/

theorem Verb.isPlain_key (verb : Verb) : ∀ c ∈ verb.key.toList, Text.isPlain c = true :=
  List.all_eq_true.mp (by cases verb <;> decide +kernel)

theorem Language.isPlain_spellings (language : Language) :
    ∀ spelling ∈ language.spellings, ∀ c ∈ spelling.toList, Text.isPlain c = true := by
  have hall : ∀ spelling ∈ language.spellings, spelling.toList.all Text.isPlain = true := by
    cases language <;> decide +kernel
  exact fun spelling hspelling => List.all_eq_true.mp (hall spelling hspelling)

/-- All ways to put a text in lower case find the same plain words. -/
theorem ofList_eq_iff {s t u : List Char} (ht : Lowered s t) (hu : Lowered s u) {word : String}
    (hword : ∀ c ∈ word.toList, Text.isPlain c = true) : String.ofList t = word ↔ String.ofList u = word := by
  rw [← String.toList_inj, ← String.toList_inj, String.toList_ofList, String.toList_ofList]
  constructor
  · rintro rfl
    exact ht.eq_of_plain hu hword
  · rintro rfl
    exact hu.eq_of_plain ht hword

theorem Verb.ofText?_eq_some_iff {s : String} {t : List Char} (h : Lowered s.toList t) (verb : Verb) :
    Verb.ofText? s = some verb ↔ String.ofList t = verb.key := by
  rw [ofText?, ofKey?_eq_some, ofList_eq_iff (lowered_lowercase s.toList) h verb.isPlain_key]

theorem Language.ofText?_eq_some_iff_mem (s : String) (language : Language) :
    Language.ofText? s = some language ↔ String.ofList (Text.lowercase s.toList) ∈ language.spellings := by
  unfold ofText?
  generalize String.ofList (Text.lowercase s.toList) = folded
  by_cases hgo : folded = "go" ∨ folded = "golang"
  · have hrust : ¬ (folded = "rust" ∨ folded = "rs") := by
      rcases hgo with rfl | rfl <;> decide
    cases language <;> simp [spellings, hgo, hrust]
  · by_cases hrust : folded = "rust" ∨ folded = "rs"
    · cases language <;> simp [spellings, hgo, hrust]
    · cases language <;> simp [spellings, hgo, hrust]

theorem Language.ofText?_eq_some_iff {s : String} {t : List Char} (h : Lowered s.toList t) (language : Language) :
    Language.ofText? s = some language ↔ String.ofList t ∈ language.spellings := by
  have hspelling : ∀ spelling ∈ language.spellings,
      (String.ofList (Text.lowercase s.toList) = spelling ↔ String.ofList t = spelling) := fun spelling hmem =>
    ofList_eq_iff (lowered_lowercase s.toList) h (language.isPlain_spellings spelling hmem)
  rw [ofText?_eq_some_iff_mem]
  constructor
  · intro hmem
    rwa [(hspelling _ hmem).mp rfl]
  · intro hmem
    rwa [(hspelling _ hmem).mpr rfl]

/-! ## §2 Texts outside ASCII -/

theorem ofList_map_toLower (s : String) : String.ofList (s.toList.map Char.toLower) = s.toLower := by
  rw [← String.toList_inj, String.toList_ofList, String.toLower, String.toList_map]

/-- A text that is a plain word in lower case is an ASCII text. -/
theorem ascii_of_ofList_eq {s t : List Char} (h : Lowered s t) {word : String} (heq : String.ofList t = word)
    (hword : ∀ c ∈ word.toList, Text.isPlain c = true) : ∀ c ∈ s, c.toNat < 128 := by
  rw [← heq, String.toList_ofList] at hword
  exact h.ascii_of_plain hword

theorem Verb.ascii_of_ofText? {s : String} {verb : Verb} (h : Verb.ofText? s = some verb) :
    ∀ c ∈ s.toList, c.toNat < 128 :=
  have hlowered := lowered_lowercase s.toList
  ascii_of_ofList_eq hlowered ((ofText?_eq_some_iff hlowered verb).mp h) verb.isPlain_key

theorem Language.ascii_of_ofText? {s : String} {language : Language} (h : Language.ofText? s = some language) :
    ∀ c ∈ s.toList, c.toNat < 128 :=
  ascii_of_ofList_eq (lowered_lowercase s.toList) rfl
    (language.isPlain_spellings _ ((ofText?_eq_some_iff_mem s language).mp h))

/-- A text names a verb exactly if its ASCII letters in lower case make it the verb's key, and a language exactly if
they make it one of the language's spellings. The full lower-case form of the text decides the same, whichever sigmas
it counts as final. So a text with a character outside ASCII names neither. -/
theorem ofText?_ascii (s : String) (final : List Char → List Char → Bool) :
    (∀ verb, Verb.ofText? s = some verb ↔ s.toLower = verb.key) ∧
      (∀ language, Language.ofText? s = some language ↔ s.toLower ∈ language.spellings) ∧
      (∀ verb, Verb.ofText? s = some verb ↔ String.ofList (Text.lowerText final [] s.toList) = verb.key) ∧
      (∀ language,
        Language.ofText? s = some language ↔ String.ofList (Text.lowerText final [] s.toList) ∈ language.spellings) ∧
      ((∃ c ∈ s.toList, 128 ≤ c.toNat) → Verb.ofText? s = none ∧ Language.ofText? s = none) := by
  have hascii : Lowered s.toList (s.toList.map Char.toLower) := Text.lowered_map_toLower s.toList
  have hfull : Lowered s.toList (Text.lowerText final [] s.toList) := lowered_lowerText final [] s.toList
  rw [← ofList_map_toLower]
  refine ⟨Verb.ofText?_eq_some_iff hascii, Language.ofText?_eq_some_iff hascii, Verb.ofText?_eq_some_iff hfull,
    Language.ofText?_eq_some_iff hfull, ?_⟩
  rintro ⟨c, hc, hout⟩
  constructor
  · rw [Option.eq_none_iff_forall_ne_some]
    intro verb h
    exact absurd (Verb.ascii_of_ofText? h c hc) (by omega)
  · rw [Option.eq_none_iff_forall_ne_some]
    intro language h
    exact absurd (Language.ascii_of_ofText? h c hc) (by omega)

/-- Keywords in mixed case, and one whose long s is an `S` in upper case but stays itself in lower case. -/
theorem ofText?_ascii_longS :
    Verb.ofText? "DeLeTe" = some .delete ∧ Language.ofText? "GoLang" = some .go ∧
      (∃ c ∈ "RU\u017fT".toList, 128 ≤ c.toNat) ∧ Language.ofText? "RU\u017fT" = none := by
  have hverb := (ofText?_ascii "DeLeTe" fun _ _ => true).1 .delete
  have hlanguage := (ofText?_ascii "GoLang" fun _ _ => true).2.1 .go
  have hlong : ∃ c ∈ "RU\u017fT".toList, 128 ≤ c.toNat := ⟨'\u017f', by decide +kernel, by decide⟩
  have hdelete : "DeLeTe".toLower = Verb.key .delete := by decide +kernel
  have hgolang : "GoLang".toLower ∈ Language.spellings .go := by decide +kernel
  exact ⟨hverb.mpr hdelete, hlanguage.mpr hgolang, hlong,
    ((ofText?_ascii "RU\u017fT" fun _ _ => true).2.2.2.2 hlong).2⟩

end RouteStubs
