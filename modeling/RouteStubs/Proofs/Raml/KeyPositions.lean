import Mathlib.Order.Bounds.Defs
import RouteStubs.Proofs.Raml.Location
import RouteStubs.Proofs.Text.Bytes
/-!
What is located, in the bytes of a document.

`KeysAt` gives the bytes at which the keys of a way stand, one behind the other. `locate_isLeast` says that a way is
located exactly if its keys stand somewhere like that, and that what is located is the last key where it stands
first. `mem_lastPositions_iff` connects this with `EndsAt`, where keys stand behind characters and not at bytes.

The search needs no offset that it could not cut the document at: `locateCutting` is the same search with a cut at
each offset, which may fail, and `locateCutting_eq` says that it never does.
-/

namespace RouteStubs

/-! ## §1 Cutting a text at a byte -/

namespace Text

/-- The text from a byte on. There is none if the byte is behind the end of the text or inside a character. -/
def fromByte? : Nat → List Char → Option (List Char)
  | 0, text => some text
  | _ + 1, [] => none
  | n + 1, c :: text => if c.utf8Size ≤ n + 1 then fromByte? (n + 1 - c.utf8Size) text else none
termination_by structural _ text => text

/-- A text can be cut behind any of its beginnings. -/
theorem fromByte?_append (before after : List Char) :
    fromByte? (byteLength before) (before ++ after) = some after := by
  induction before with
  | nil => cases after <;> rfl
  | cons c before ih =>
    obtain ⟨n, hn⟩ : ∃ n, byteLength (c :: before) = n + 1 :=
      Nat.exists_eq_add_one.mpr (Nat.add_pos_left c.utf8Size_pos _)
    have hsize : c.utf8Size ≤ n + 1 := by rw [← hn]; exact Nat.le_add_right _ _
    rw [hn, List.cons_append, fromByte?, if_pos hsize, ← hn, byteLength_cons, Nat.add_sub_cancel_left, ih]

/-- Of two beginnings of a text the one with fewer bytes is a beginning of the other. -/
theorem prefix_of_byteLength_le {s t text : List Char} (hs : s <+: text) (ht : t <+: text)
    (h : byteLength s ≤ byteLength t) : s <+: t := by
  rcases List.prefix_or_prefix_of_prefix hs ht with hst | ⟨rest, rfl⟩
  · exact hst
  · cases rest with
    | nil => simp
    | cons c rest =>
      have hpos := c.utf8Size_pos
      rw [byteLength_append, byteLength_cons] at h
      omega

end Text

namespace Raml

/-- The search for a way with a cut of the document at each offset from which a key is searched. There is no result
if the document cannot be cut there. -/
def locateCutting (document : List Char) : Nat → List (List Char) → Option Span → Option (Option Span)
  | _, [], found => some found
  | offset, key :: keys, _ =>
    (Text.fromByte? offset document).bind fun text =>
      match Text.splitAtFirst? (key ++ [':']) text with
      | none => some none
      | some (before, _) =>
        let start := offset + Text.byteLength before
        locateCutting document (start + Text.byteLength key + 1) keys (some ⟨start, Text.byteLength key⟩)

/-- **The document can be cut at every offset of the search**, and what is found is what is located. -/
theorem locateCutting_eq (front text : List Char) (keys : List (List Char)) (found : Option Span) :
    locateCutting (front ++ text) (Text.byteLength front) keys found =
      some (locateFrom (Text.byteLength front) text keys found) := by
  induction keys generalizing front text found with
  | nil => rfl
  | cons key keys ih =>
    rw [locateCutting, Text.fromByte?_append, Option.bind_some, locateFrom]
    cases hsplit : Text.splitAtFirst? (key ++ [':']) text with
    | none => rfl
    | some split =>
      obtain ⟨before, after⟩ := split
      have htext := (Text.splitAtFirst?_eq_some hsplit).1
      have hfront : front ++ text = (front ++ before ++ (key ++ [':'])) ++ after := by
        rw [htext]
        simp
      have hoffset : Text.byteLength front + Text.byteLength before + Text.byteLength key + 1 =
          Text.byteLength (front ++ before ++ (key ++ [':'])) := by
        simp [Nat.add_assoc]
        rfl
      dsimp only
      rw [hfront, hoffset, ih]

/-! ## §2 The bytes at which keys stand -/

/-- The key stands at byte `p` of the text, with a colon behind it. -/
def KeyAt (text key : String) (p : Nat) : Prop :=
  Text.utf8 (key ++ ":") <+: (Text.utf8 text).drop p

/-- The keys stand at the bytes `ps` of the text, none of them in front of byte `start`, and each behind the one before
it and its colon. -/
inductive KeysAt (text : String) : Nat → List String → List Nat → Prop
  | nil {start : Nat} : KeysAt text start [] []
  | cons {start p : Nat} {key : String} {keys : List String} {ps : List Nat} (le : start ≤ p)
      (here : KeyAt text key p) (behind : KeysAt text (p + (Text.utf8 (key ++ ":")).length) keys ps) :
      KeysAt text start (key :: keys) (p :: ps)

theorem keyAt_iff {text key : String} {p : Nat} :
    KeyAt text key p ↔
      ∃ before after, text.toList = before ++ (key.toList ++ ':' :: after) ∧ Text.byteLength before = p := by
  have hkey : (key ++ ":").toList = key.toList ++ [':'] := String.toList_append
  rw [KeyAt, Text.utf8_eq_bytes, Text.utf8_eq_bytes, hkey, Text.bytes_prefix_drop_iff (by simp)]
  simp

/-- A key takes one byte more with its colon. -/
theorem length_utf8_key (key : String) : (Text.utf8 (key ++ ":")).length = Text.byteLength key.toList + 1 := by
  rw [Text.length_utf8, String.toList_append, Text.byteLength_append]
  rfl

/-- A key stands at a byte of the text from which its own bytes are read, and a colon behind them. -/
theorem KeyAt.spelled {text key : String} {p : Nat} (h : KeyAt text key p) :
    ((Text.utf8 text).drop p).take (Text.utf8 key).length = Text.utf8 key ∧
      ((Text.utf8 text).drop (p + (Text.utf8 key).length)).take 1 = Text.utf8 ":" := by
  obtain ⟨rest, hrest⟩ := h
  have hkey : Text.utf8 (key ++ ":") = Text.utf8 key ++ Text.utf8 ":" := by
    simp [Text.utf8_eq_bytes]
  rw [hkey, List.append_assoc] at hrest
  rw [← List.drop_drop, ← hrest]
  exact ⟨List.take_left, by rw [List.drop_left]; rfl⟩

section
variable {text key : String} {keys : List String} {front rest : List Char} {last : Nat}

theorem append_behind (front before key after : List Char) :
    front ++ (before ++ (key ++ ':' :: after)) = front ++ before ++ (key ++ [':']) ++ after := by simp

theorem byteLength_behind (before : List Char) (key : String) :
    Text.byteLength (before ++ (key.toList ++ [':'])) =
      Text.byteLength before + (Text.utf8 (key ++ ":")).length := by
  rw [Text.byteLength_append, length_utf8_key, Text.byteLength_append]
  rfl

/-- A key that stands at no byte in front of the text that is left stands in that text. -/
theorem KeyAt.exists_split {p : Nat} (here : KeyAt text key p) (htext : text.toList = front ++ rest)
    (hle : Text.byteLength front ≤ p) :
    ∃ before after, rest = before ++ (key.toList ++ ':' :: after) ∧ p = Text.byteLength (front ++ before) := by
  obtain ⟨_, after, hsplit, rfl⟩ := keyAt_iff.mp here
  obtain ⟨before, rfl⟩ := Text.prefix_of_byteLength_le ⟨rest, htext.symm⟩ ⟨_, hsplit.symm⟩ hle
  refine ⟨before, after, ?_, rfl⟩
  rw [htext, List.append_assoc] at hsplit
  exact List.append_cancel_left hsplit

/-- Keys that stand behind characters stand at bytes. -/
theorem EndsAt.keysAt (h : EndsAt (Text.byteLength front) rest ((key :: keys).map String.toList) last)
    (htext : text.toList = front ++ rest) :
    ∃ ps, KeysAt text (Text.byteLength front) (key :: keys) ps ∧ ps.getLast? = some last := by
  induction keys generalizing key front rest with
  | nil =>
    obtain @⟨_, before, _, after⟩ | ⟨⟨⟩⟩ := h
    have here : KeyAt text key (Text.byteLength front + Text.byteLength before) :=
      keyAt_iff.mpr ⟨front ++ before, after, by rw [htext, List.append_assoc], Text.byteLength_append _ _⟩
    exact ⟨[_], .cons (Nat.le_add_right _ _) here .nil, rfl⟩
  | cons next keys ih =>
    obtain _ | @⟨_, _, before, _, after, _, hrest⟩ := h
    have here : KeyAt text key (Text.byteLength (front ++ before)) :=
      keyAt_iff.mpr ⟨front ++ before, after, by rw [htext, List.append_assoc], rfl⟩
    have hbehind : text.toList = front ++ before ++ (key.toList ++ [':']) ++ after :=
      htext.trans (append_behind ..)
    have hoffset : Text.byteLength front + Text.byteLength before + Text.byteLength key.toList + 1 =
        Text.byteLength (front ++ before ++ (key.toList ++ [':'])) := by
      rw [byteLength_behind, length_utf8_key, Text.byteLength_append, Nat.add_assoc _ _ 1]
    rw [hoffset] at hrest
    obtain ⟨ps, hkeys, hlast⟩ := ih hrest hbehind
    rw [byteLength_behind] at hkeys
    refine ⟨_ :: ps, .cons ?_ here hkeys, ?_⟩
    · rw [Text.byteLength_append]
      exact Nat.le_add_right _ _
    · rw [List.getLast?_cons, hlast]
      rfl

/-- Keys that stand at bytes stand behind characters. -/
theorem KeysAt.endsAt {ps : List Nat} (h : KeysAt text (Text.byteLength front) (key :: keys) ps)
    (htext : text.toList = front ++ rest) (hlast : ps.getLast? = some last) :
    EndsAt (Text.byteLength front) rest ((key :: keys).map String.toList) last := by
  induction keys generalizing key front rest ps with
  | nil =>
    obtain _ | ⟨hle, here, ⟨⟩⟩ := h
    obtain ⟨before, after, rfl, rfl⟩ := here.exists_split htext hle
    obtain rfl : Text.byteLength (front ++ before) = last := by simpa using hlast
    rw [Text.byteLength_append]
    exact .single
  | cons next keys ih =>
    obtain _ | @⟨_, _, _, _, ps, hle, here, behind⟩ := h
    obtain ⟨before, after, rfl, rfl⟩ := here.exists_split htext hle
    have hlast' : ps.getLast? = some last := by
      obtain _ | _ := behind
      simpa using hlast
    have hbehind : text.toList = front ++ before ++ (key.toList ++ [':']) ++ after :=
      htext.trans (append_behind ..)
    rw [← byteLength_behind] at behind
    have hends := ih behind hbehind hlast'
    rw [byteLength_behind, length_utf8_key, Text.byteLength_append, ← Nat.add_assoc] at hends
    exact .cons hends

end

/-! ## §3 What is located -/

/-- The bytes at which the last key of a way stands, over all places where the way stands. -/
def lastPositions (text : String) (path : List String) : Set Nat :=
  {p | ∃ ps, KeysAt text 0 path ps ∧ ps.getLast? = some p}

theorem KeysAt.length_eq {text : String} {start : Nat} {keys : List String} {ps : List Nat}
    (h : KeysAt text start keys ps) : ps.length = keys.length := by
  induction h with
  | nil => rfl
  | cons _ _ _ ih => rw [List.length_cons, List.length_cons, ih]

/-- The last key of a way stands at the last of its bytes. -/
theorem KeysAt.keyAt_getLast {text : String} {start last : Nat} {keys : List String} {ps : List Nat}
    (h : KeysAt text start keys ps) (hne : keys ≠ []) (hlast : ps.getLast? = some last) :
    KeyAt text (keys.getLast hne) last := by
  induction h with
  | nil => contradiction
  | @cons start p key keys ps _ here behind ih =>
    cases behind with
    | nil =>
      obtain rfl : p = last := by simpa using hlast
      exact here
    | cons hle here' behind' =>
      rw [List.getLast_cons (List.cons_ne_nil _ _)]
      exact ih (List.cons_ne_nil _ _) (by simpa using hlast)

theorem mem_lastPositions_iff {text key : String} {keys : List String} {p : Nat} :
    p ∈ lastPositions text (key :: keys) ↔ EndsAt 0 text.toList ((key :: keys).map String.toList) p := by
  have htext : text.toList = [] ++ text.toList := rfl
  constructor
  · rintro ⟨_, hkeys, hlast⟩
    exact KeysAt.endsAt hkeys htext hlast
  · intro hends
    have hends' : EndsAt (Text.byteLength []) text.toList ((key :: keys).map String.toList) p := hends
    exact hends'.keysAt htext

/-- A way that is located stands somewhere. -/
theorem exists_endsAt {offset : Nat} {text key : List Char} {keys : List (List Char)} {found : Option Span}
    {span : Span} (h : locateFrom offset text (key :: keys) found = some span) :
    ∃ last, EndsAt offset text (key :: keys) last := by
  induction keys generalizing offset text key found with
  | nil =>
    rw [locateFrom] at h
    split at h
    case h_1 => cases h
    case h_2 before after hsplit =>
      rw [(Text.splitAtFirst?_eq_some hsplit).1, List.append_assoc]
      exact ⟨_, .single⟩
  | cons next keys ih =>
    rw [locateFrom] at h
    split at h
    case h_1 => cases h
    case h_2 before after hsplit =>
      obtain ⟨last, hrest⟩ := ih h
      rw [(Text.splitAtFirst?_eq_some hsplit).1, List.append_assoc]
      exact ⟨last, .cons hrest⟩

/-- **A way is located exactly if its keys stand in the text one behind the other, and what is located is its last
key, where it stands first**, over all places where the way stands. No offset of the search is behind the end of
the text or inside a character. -/
theorem locate_isLeast (text : String) {path : List String} (hpath : path ≠ []) :
    locateCutting text.toList 0 (path.map String.toList) none = some (locate text.toList path) ∧
      ((∃ span, locate text.toList path = some span) ↔ ∃ ps, KeysAt text 0 path ps) ∧
      ∀ span, locate text.toList path = some span →
        IsLeast (lastPositions text path) span.offset ∧
          span.length = (Text.utf8 (path.getLast hpath)).length ∧
          ((Text.utf8 text).drop span.offset).take span.length = Text.utf8 (path.getLast hpath) ∧
          ((Text.utf8 text).drop (span.offset + span.length)).take 1 = Text.utf8 ":" := by
  obtain ⟨key, keys, rfl⟩ := List.exists_cons_of_ne_nil hpath
  refine ⟨locateCutting_eq [] text.toList _ none, ⟨?_, ?_⟩, ?_⟩
  · rintro ⟨span, hspan⟩
    obtain ⟨last, hends⟩ := exists_endsAt hspan
    obtain ⟨ps, hkeys, -⟩ := mem_lastPositions_iff.mpr hends
    exact ⟨ps, hkeys⟩
  · rintro ⟨ps, hkeys⟩
    have hne : ps ≠ [] := List.ne_nil_of_length_pos (hkeys.length_eq ▸ Nat.succ_pos _)
    have hends := mem_lastPositions_iff.mp ⟨ps, hkeys, List.getLast?_eq_some_getLast hne⟩
    obtain ⟨first, hfound, -⟩ := locateFrom_least hends none
    exact ⟨_, hfound⟩
  · intro span hspan
    obtain ⟨last, hends⟩ := exists_endsAt hspan
    obtain ⟨first, hfound, hfirst, hleast⟩ := locateFrom_least hends none
    obtain rfl : _ = span := Option.some.inj (hfound.symm.trans hspan)
    obtain ⟨ps, hkeys, hlast⟩ := mem_lastPositions_iff.mpr hfirst
    have hlength : Text.byteLength ((keys.map String.toList).getLastD key.toList) =
        (Text.utf8 ((key :: keys).getLast hpath)).length := by
      rw [Text.length_utf8, List.getLastD_map, List.getLast_eq_getLastD]
    obtain ⟨hspelled, hcolon⟩ := (hkeys.keyAt_getLast hpath hlast).spelled
    refine ⟨⟨mem_lastPositions_iff.mpr hfirst, fun p hp => hleast p (mem_lastPositions_iff.mp hp)⟩, hlength, ?_, ?_⟩
    · rw [hlength, hspelled]
    · rw [hlength, hcolon]

/-- Both keys of resources end with `ür:` as well, but these occurrences are not behind the colon of `/für`. -/
theorem locate_isLeast_suffix :
    ["/für", "ür"] ≠ [] ∧ locate "/ür:\n/für:\n ür:\nür:".toList ["/für", "ür"] = some ⟨14, 3⟩ ∧
      IsLeast (lastPositions "/ür:\n/für:\n ür:\nür:" ["/für", "ür"]) 14 := by
  have hpath : ["/für", "ür"] ≠ [] := List.cons_ne_nil _ _
  have hspan : locate "/ür:\n/für:\n ür:\nür:".toList ["/für", "ür"] = some ⟨14, 3⟩ := by decide
  exact ⟨hpath, hspan, ((locate_isLeast _ hpath).2.2 _ hspan).1⟩

end Raml

end RouteStubs
