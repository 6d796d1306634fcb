import Mathlib.Tactic.SplitIfs
/-!
The order of texts is the order of their bytes.

Keys are kept in the order of `<` on texts, which compares characters. `lt_iff_utf8_lt` says that this is
the order of their UTF-8 forms, byte by byte and with a proper beginning first. The reason is one
property of the encoding, `utf8EncodeChar_lt`: a smaller character has a smaller form whatever follows
either of them.
-/

namespace RouteStubs.Text

/-- The bytes of a text in UTF-8. -/
def utf8 (s : String) : List UInt8 := s.toUTF8.data.toList

theorem utf8_eq_flatMap (s : String) : utf8 s = s.toList.flatMap String.utf8EncodeChar := by
  rw [utf8, String.toUTF8_eq_toByteArray, ← String.utf8Encode_toList]
  simp [List.utf8Encode]

/-! ## §1 Characters -/

/-- The smaller of two numbers has the smaller last digit in base 64, unless they differ before it. -/
theorem digit_lt {m n q r : Nat} (h : m < n) (hq : m / 64 = q) (hr : n / 64 = r) :
    q < r ∨ q = r ∧ m % 64 < n % 64 := by
  omega

/-- A byte after the first one holds six bits, and nothing of them is cut off. -/
theorem continuation_mod (n : Nat) : (n % 64 + 128) % 256 = n % 64 + 128 := by omega

/-- The first byte of four holds what is left of a code point. -/
theorem firstOfFour_mod {n : Nat} (h : n < 0x110000) :
    (n / 262144 % 8 + 240) % 256 = n / 262144 + 240 := by
  omega

/-- **A smaller character has a smaller form**, whatever follows either of them. -/
theorem utf8EncodeChar_lt {c d : Char} (h : c < d) (s t : List UInt8) :
    String.utf8EncodeChar c ++ s < String.utf8EncodeChar d ++ t := by
  have hlt : c.val.toNat < d.val.toNat := UInt32.lt_iff_toNat_lt.mp h
  have hd : d.val.toNat < 0x110000 := by
    have hvalid := d.valid
    simp only [UInt32.isValidChar, Nat.isValidChar] at hvalid
    omega
  simp only [String.utf8EncodeChar]
  generalize c.val.toNat = m at hlt
  generalize d.val.toNat = n at hlt hd
  -- one case for each pair of lengths; a longer form never belongs to a smaller character
  split_ifs <;> try omega
  all_goals
    simp only [List.cons_append, List.nil_append, List.cons_lt_cons_iff, UInt8.lt_iff_toNat_lt,
      ← UInt8.toNat_inj, UInt8.toNat_ofNat', Nat.reducePow, continuation_mod]
  iterate 9 omega
  -- four bytes each: the digits have to be compared one after the other
  have h₀ := digit_lt hlt rfl rfl
  have h₁ : m / 64 < n / 64 → _ := fun h =>
    digit_lt h (Nat.div_div_eq_div_mul m 64 64) (Nat.div_div_eq_div_mul n 64 64)
  have h₂ : m / 4096 < n / 4096 → _ := fun h =>
    digit_lt h (Nat.div_div_eq_div_mul m 4096 64) (Nat.div_div_eq_div_mul n 4096 64)
  rw [firstOfFour_mod (by omega : m < 0x110000), firstOfFour_mod hd]
  omega

/-! ## §2 Texts -/

/-- A smaller list of characters has a smaller form. -/
theorem flatMap_utf8EncodeChar_lt {s t : List Char} (h : s < t) :
    s.flatMap String.utf8EncodeChar < t.flatMap String.utf8EncodeChar := by
  induction h with
  | @nil c t =>
    obtain ⟨b, bs, hc⟩ := List.exists_cons_of_ne_nil (String.utf8EncodeChar_ne_nil (c := c))
    rw [List.flatMap_cons, hc]
    exact List.nil_lt_cons _ _
  | rel hcd =>
    rw [List.flatMap_cons, List.flatMap_cons]
    exact utf8EncodeChar_lt hcd _ _
  | cons _ ih =>
    rw [List.flatMap_cons, List.flatMap_cons]
    exact List.append_left_lt ih

theorem utf8_lt_of_lt {a b : String} (h : a < b) : utf8 a < utf8 b := by
  rw [utf8_eq_flatMap, utf8_eq_flatMap]
  exact flatMap_utf8EncodeChar_lt (String.lt_iff.mp h)

theorem utf8_lt_asymm {a b : String} (h : utf8 a < utf8 b) : ¬ utf8 b < utf8 a :=
  List.lt_asymm h

/-- **The order of texts is the order of their bytes.** -/
theorem lt_iff_utf8_lt {a b : String} : a < b ↔ utf8 a < utf8 b := by
  refine ⟨utf8_lt_of_lt, fun h => ?_⟩
  by_cases hab : a < b
  · exact hab
  · by_cases hba : b < a
    · exact absurd (utf8_lt_of_lt hba) (utf8_lt_asymm h)
    · have heq : a = b := String.le_antisymm (String.not_lt.mp hba) (String.not_lt.mp hab)
      subst heq
      exact absurd h (utf8_lt_asymm h)

end RouteStubs.Text
