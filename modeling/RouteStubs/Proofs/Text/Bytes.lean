import RouteStubs.Proofs.Text.ByteOrder
import RouteStubs.Text.Utf8
/-!
Texts and their bytes.

The bytes of a text say where its characters begin: `bytes_prefix_drop_iff` says that the bytes of a text that is
not empty stand at some byte of another exactly if the text itself stands there, with the characters in front of
it taking as many bytes. The reason is that the first byte of a character is never one of its others.
-/

namespace RouteStubs.Text

/-- The bytes of characters in UTF-8. -/
def bytes (s : List Char) : List UInt8 := s.flatMap String.utf8EncodeChar

theorem utf8_eq_bytes (s : String) : utf8 s = bytes s.toList := utf8_eq_flatMap s

@[simp] theorem bytes_nil : bytes [] = [] := rfl

@[simp] theorem bytes_cons (c : Char) (s : List Char) : bytes (c :: s) = String.utf8EncodeChar c ++ bytes s :=
  List.flatMap_cons

@[simp] theorem bytes_append (s t : List Char) : bytes (s ++ t) = bytes s ++ bytes t := List.flatMap_append

@[simp] theorem length_bytes (s : List Char) : (bytes s).length = byteLength s := by
  induction s with
  | nil => rfl
  | cons c s ih => rw [bytes_cons, List.length_append, String.length_utf8EncodeChar, ih, byteLength_cons]

theorem length_utf8 (s : String) : (utf8 s).length = byteLength s.toList := by
  rw [utf8_eq_bytes, length_bytes]

/-- What follows the bytes of the text in front is the bytes of the rest. -/
theorem drop_bytes_append (before after : List Char) :
    (bytes (before ++ after)).drop (byteLength before) = bytes after := by
  rw [bytes_append, ← length_bytes, List.drop_left]

/-! ## §1 Where characters begin -/

/-- Characters whose bytes begin alike are the same. -/
theorem eq_of_utf8EncodeChar_append {c d : Char} {s t : List UInt8}
    (h : String.utf8EncodeChar c ++ s = String.utf8EncodeChar d ++ t) : c = d := by
  by_cases hlt : c < d
  · exact absurd (h ▸ utf8EncodeChar_lt hlt s t) (List.lt_irrefl _)
  · by_cases hgt : d < c
    · exact absurd (h ▸ utf8EncodeChar_lt hgt t s) (List.lt_irrefl _)
    · exact Char.le_antisymm (Char.not_lt.mp hgt) (Char.not_lt.mp hlt)

/-- A text begins with another exactly if its bytes do. -/
theorem prefix_of_bytes_prefix {s t : List Char} (h : bytes s <+: bytes t) : s <+: t := by
  induction s generalizing t with
  | nil => exact List.nil_prefix
  | cons c s ih =>
    cases t with
    | nil =>
      have hnil : bytes (c :: s) = [] := List.prefix_nil.mp h
      simp [String.utf8EncodeChar_ne_nil] at hnil
    | cons d t =>
      obtain ⟨rest, hrest⟩ := h
      rw [bytes_cons, bytes_cons, List.append_assoc] at hrest
      obtain rfl : c = d := eq_of_utf8EncodeChar_append hrest
      exact List.prefix_cons_inj c |>.mpr (ih ⟨rest, List.append_cancel_left hrest⟩)

/-- Where the first byte of a character stands, a character begins. -/
theorem exists_boundary {text : List Char} {p : Nat} {b : UInt8} (h : (bytes text)[p]? = some b)
    (hfirst : b.IsUTF8FirstByte) : ∃ before after, text = before ++ after ∧ byteLength before = p := by
  induction text generalizing p with
  | nil => simp at h
  | cons c text ih =>
    rw [bytes_cons, List.getElem?_append] at h
    split at h
    case isTrue hwithin =>
      obtain ⟨_, hb⟩ := List.getElem?_eq_some_iff.mp h
      rw [← hb] at hfirst
      have hzero : p = 0 := UInt8.isUTF8FirstByte_getElem_utf8EncodeChar.mp hfirst
      exact ⟨[], c :: text, rfl, hzero.symm⟩
    case isFalse hbehind =>
      obtain ⟨before, after, rfl, hlength⟩ := ih h
      rw [String.length_utf8EncodeChar] at hbehind hlength
      refine ⟨c :: before, after, rfl, ?_⟩
      rw [byteLength_cons, hlength]
      omega

/-- The bytes of a text that is not empty begin with the first byte of a character. -/
theorem exists_firstByte {s : List Char} (h : s ≠ []) : ∃ b rest, bytes s = b :: rest ∧ b.IsUTF8FirstByte := by
  obtain ⟨c, s, rfl⟩ := List.exists_cons_of_ne_nil h
  obtain ⟨b, rest, hc⟩ := List.exists_cons_of_ne_nil (String.utf8EncodeChar_ne_nil (c := c))
  refine ⟨b, rest ++ bytes s, by rw [bytes_cons, hc, List.cons_append], ?_⟩
  have hfirst := UInt8.isUTF8FirstByte_getElem_zero_utf8EncodeChar (c := c)
  simp only [hc] at hfirst
  exact hfirst

/-- **The bytes of a text that is not empty stand at a byte exactly if the text does**, behind characters that
take as many bytes. -/
theorem bytes_prefix_drop_iff {needle text : List Char} (hne : needle ≠ []) {p : Nat} :
    bytes needle <+: (bytes text).drop p ↔
      ∃ before after, text = before ++ (needle ++ after) ∧ byteLength before = p := by
  constructor
  · intro h
    obtain ⟨b, rest, hbytes, hfirst⟩ := exists_firstByte hne
    obtain ⟨after, hafter⟩ := h
    have hb : (bytes text)[p]? = some b := by
      have hdrop : (bytes text)[p]? = ((bytes text).drop p)[0]? := by rw [List.getElem?_drop, Nat.add_zero]
      rw [hdrop, ← hafter, hbytes]
      rfl
    obtain ⟨before, rest, rfl, rfl⟩ := exists_boundary hb hfirst
    rw [drop_bytes_append] at hafter
    obtain ⟨after, rfl⟩ := prefix_of_bytes_prefix ⟨_, hafter⟩
    exact ⟨before, after, rfl, rfl⟩
  · rintro ⟨before, after, rfl, rfl⟩
    rw [drop_bytes_append, bytes_append]
    exact List.prefix_append _ _

end RouteStubs.Text
