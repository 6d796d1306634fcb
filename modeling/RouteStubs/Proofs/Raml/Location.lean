import RouteStubs.Proofs.Text.Occurrences
import RouteStubs.Raml.Location
/-!
Where keys occur in a document, one behind the other.

`EndsAt` says that the keys of a way occur in this order, each with its colon, and where the last of them
stands. A way can occur more than once: what is located is the occurrence whose last key stands first
(`locateFrom_least`), which need not be the one that was meant.
-/

namespace RouteStubs.Raml

/-- The keys occur in the text one behind the other, each with its colon, and the last of them stands at
byte `last` of the document. The text begins at byte `offset`. -/
inductive EndsAt : Nat → List Char → List (List Char) → Nat → Prop
  | single {offset : Nat} {before key after : List Char} :
      EndsAt offset (before ++ (key ++ ':' :: after)) [key] (offset + Text.byteLength before)
  | cons {offset last : Nat} {before key after : List Char} {keys : List (List Char)}
      (rest : EndsAt (offset + Text.byteLength before + Text.byteLength key + 1) after keys last) :
      EndsAt offset (before ++ (key ++ ':' :: after)) (key :: keys) last

/-- What occurs in a part of the text occurs in the text. -/
theorem EndsAt.prepend {offset last : Nat} {text : List Char} {keys : List (List Char)} (start : List Char)
    (h : EndsAt (offset + Text.byteLength start) text keys last) :
    EndsAt offset (start ++ text) keys last := by
  generalize hoffset : offset + Text.byteLength start = shifted at h
  induction h with
  | @single _ before key after =>
    rw [← List.append_assoc, ← hoffset, Nat.add_assoc, ← Text.byteLength_append]
    exact .single
  | @cons _ last before key after keys rest =>
    rw [← List.append_assoc]
    refine .cons ?_
    rwa [Text.byteLength_append, ← Nat.add_assoc, hoffset]

/-- Of two occurrences the second begins behind the first as far as their starts are apart. -/
theorem exists_between {needle before after before' after' : List Char}
    (h : before ++ (needle ++ after) = before' ++ (needle ++ after'))
    (hle : before.length ≤ before'.length) :
    ∃ between, after = between ++ after' ∧
      Text.byteLength before + Text.byteLength between = Text.byteLength before' := by
  have hassoc : before ++ needle ++ after = before' ++ needle ++ after' := by
    rw [List.append_assoc, h, List.append_assoc]
  have hprefix : before ++ needle <+: before' ++ needle := by
    refine List.prefix_of_prefix_length_le ⟨after, hassoc⟩ ⟨after', rfl⟩ ?_
    simpa using hle
  obtain ⟨between, hbetween⟩ := hprefix
  have hlength := congrArg Text.byteLength hbetween
  refine ⟨between, ?_, ?_⟩
  · rw [← hbetween, List.append_assoc (before ++ needle)] at hassoc
    exact List.append_cancel_left hassoc
  · simp only [Text.byteLength_append] at hlength
    omega

section
variable {offset last : Nat} {text key next before after : List Char} {keys : List (List Char)}

/-- The first occurrence of a key stands in front of every other. -/
theorem EndsAt.le_of_first (h : EndsAt offset text [key] last)
    (hsplit : Text.splitAtFirst? (key ++ [':']) text = some (before, after)) :
    offset + Text.byteLength before ≤ last := by
  obtain ⟨htext, hfirst⟩ := Text.splitAtFirst?_eq_some hsplit
  obtain @⟨_, before', _, after'⟩ | ⟨⟨⟩⟩ := h
  have heq : before' ++ (key ++ ':' :: after') = before' ++ (key ++ [':'] ++ after') := by simp
  obtain ⟨between, -, hlength⟩ := exists_between (htext.symm.trans heq) (hfirst _ _ heq)
  omega

/-- What occurs behind some occurrence of a key occurs behind the first. -/
theorem EndsAt.behind_first (h : EndsAt offset text (key :: next :: keys) last)
    (hsplit : Text.splitAtFirst? (key ++ [':']) text = some (before, after)) :
    EndsAt (offset + Text.byteLength before + Text.byteLength key + 1) after (next :: keys) last := by
  obtain ⟨htext, hfirst⟩ := Text.splitAtFirst?_eq_some hsplit
  obtain _ | @⟨_, _, before', _, after', _, hrest⟩ := h
  have heq : before' ++ (key ++ ':' :: after') = before' ++ (key ++ [':'] ++ after') := by simp
  obtain ⟨between, rfl, hlength⟩ := exists_between (htext.symm.trans heq) (hfirst _ _ heq)
  refine EndsAt.prepend between ?_
  have hoffset : offset + Text.byteLength before + Text.byteLength key + 1 + Text.byteLength between =
      offset + Text.byteLength before' + Text.byteLength key + 1 := by omega
  rwa [hoffset]

theorem exists_split (h : EndsAt offset text (key :: keys) last) :
    ∃ before after, Text.splitAtFirst? (key ++ [':']) text = some (before, after) := by
  cases hsplit : Text.splitAtFirst? (key ++ [':']) text with
  | some split => exact ⟨split.1, split.2, rfl⟩
  | none =>
    have hnone := Text.splitAtFirst?_eq_none hsplit
    obtain @⟨_, before', _, after'⟩ | @⟨_, _, before', _, after', _, _⟩ := h
    · exact absurd (by simp) (hnone before' after')
    · exact absurd (by simp) (hnone before' after')

/-- A way that occurs is located, and what is located is the occurrence that ends first. -/
theorem locateFrom_least (h : EndsAt offset text (key :: keys) last) (found : Option Span) :
    ∃ first, locateFrom offset text (key :: keys) found =
        some ⟨first, Text.byteLength (keys.getLastD key)⟩ ∧
      EndsAt offset text (key :: keys) first ∧
      ∀ last, EndsAt offset text (key :: keys) last → first ≤ last := by
  induction keys generalizing offset text key found with
  | nil =>
    obtain ⟨before, after, hsplit⟩ := exists_split h
    refine ⟨offset + Text.byteLength before, ?_, ?_, fun last hlast => hlast.le_of_first hsplit⟩
    · simp [locateFrom, hsplit]
    · rw [(Text.splitAtFirst?_eq_some hsplit).1, List.append_assoc]
      exact .single
  | cons next keys ih =>
    obtain ⟨before, after, hsplit⟩ := exists_split h
    obtain ⟨first, hfound, hends, hleast⟩ :=
      ih (h.behind_first hsplit) (some ⟨offset + Text.byteLength before, Text.byteLength key⟩)
    refine ⟨first, ?_, ?_, fun last hlast => hleast last (hlast.behind_first hsplit)⟩
    · rw [locateFrom, hsplit, List.getLastD_cons, ← hfound]
    · rw [(Text.splitAtFirst?_eq_some hsplit).1, List.append_assoc]
      exact .cons hends

/-- A way that is found in the first part of a text is found there in the whole text. -/
theorem locateFrom_append {found : Option Span} {span : Span} (h : locateFrom offset text keys found = some span)
    (rest : List Char) : locateFrom offset (text ++ rest) keys found = some span := by
  induction keys generalizing offset text found with
  | nil => exact h
  | cons key keys ih =>
    cases hsplit : Text.splitAtFirst? (key ++ [':']) text with
    | none => simp [locateFrom, hsplit] at h
    | some split =>
      rw [locateFrom, hsplit] at h
      rw [locateFrom, Text.splitAtFirst?_append_of_eq_some hsplit]
      exact ih h

end

end RouteStubs.Raml
