import RouteStubs.Proofs.Text.FullCase
/-!
Laws of handler names.

White space separates words and does nothing else (§1), so the handler of a text is put together from the handlers of
its words. Within a word a handler keeps the letters and digits where they stand (§2): `places` goes through the text
itself, and the only thing that it takes from the words is where each of them begins. There a letter is put in upper
case, and there alone two characters that are no ASCII letters leave one. And a handler is a single word of letters and
digits, so taking the handler of a handler puts its first letter in upper case and changes nothing else (§3).

* `handlerName_append_space` — the law of concatenation.
* `handlerName_letters` — what a handler keeps of a text.
* `handlerName_handlerName` — what a second application does.
-/

namespace RouteStubs

/-! ## §1 Words -/

theorem handlerChars_eq (s : List Char) :
    handlerChars s = ((Text.words s).flatMap titled).filter Text.isAlphanumeric := rfl

theorem handlerChars_append_space {w : List Char} (hw : w ≠ []) (h : ∀ c ∈ w, Text.isSpace c = true)
    (s t : List Char) : handlerChars (s ++ w ++ t) = handlerChars s ++ handlerChars t := by
  rw [handlerChars_eq, Text.words_append_space hw h, List.flatMap_append, List.filter_append]
  rfl

theorem handlerChars_of_no_space {s : List Char} (hs : s ≠ []) (h : ∀ c ∈ s, Text.isSpace c = false) :
    handlerChars s = (titled s).filter Text.isAlphanumeric := by
  rw [handlerChars_eq, Text.words_of_no_space hs h, List.flatMap_singleton]

/-- The handler of a text is put together from the handlers of its words. -/
theorem flatMap_handlerChars_words (s : List Char) : (Text.words s).flatMap handlerChars = handlerChars s := by
  rw [handlerChars_eq, List.filter_flatMap]
  apply List.flatMap_congr
  intro word hword
  exact handlerChars_of_no_space (Text.ne_nil_of_mem_words hword) fun c hc =>
    (Text.mem_and_not_isSpace_of_mem_words hword hc).2

@[simp] theorem toList_handlerName (s : String) : (handlerName s).toList = handlerChars s.toList := by
  simp [handlerName]

/-- White space between two texts separates their handlers. So it does not matter in front of a text or behind it, nor
how much of it stands between words or how it is spelled, and words are named one by one. -/
theorem handlerName_append_space (a b w : String) (hne : w ≠ "") (hspace : ∀ c ∈ w.toList, Text.isSpace c = true) :
    handlerName (a ++ w ++ b) = handlerName a ++ handlerName b ∧
      handlerName (w ++ b) = handlerName b ∧ handlerName (a ++ w) = handlerName a ∧
      (∀ v : String, v ≠ "" → (∀ c ∈ v.toList, Text.isSpace c = true) →
        handlerName (a ++ v ++ b) = handlerName (a ++ w ++ b)) ∧
      handlerName a = String.join ((Text.words a.toList).map fun word => handlerName (String.ofList word)) := by
  have hbetween : ∀ v : String, v ≠ "" → (∀ c ∈ v.toList, Text.isSpace c = true) → ∀ s t : String,
      handlerName (s ++ v ++ t) = handlerName s ++ handlerName t := by
    intro v hv hblank s t
    rw [← String.toList_inj]
    simp only [toList_handlerName, String.toList_append]
    exact handlerChars_append_space (by simpa using hv) hblank s.toList t.toList
  have hempty : handlerName "" = "" := rfl
  refine ⟨hbetween w hne hspace a b, ?_, ?_, ?_, ?_⟩
  · simpa [hempty] using hbetween w hne hspace "" b
  · simpa [hempty] using hbetween w hne hspace a ""
  · intro v hv hblank
    rw [hbetween v hv hblank, hbetween w hne hspace]
  · rw [← String.toList_inj, toList_handlerName, String.toList_join, List.flatMap_map]
    simp only [toList_handlerName, String.toList_ofList]
    exact (flatMap_handlerChars_words a.toList).symm

/-- Different white space in front of a word, between words and behind them. -/
theorem handlerName_append_space_twoWords :
    handlerName (" get" ++ "\t\u3000" ++ "me now\n") = "Get" ++ "MeNow" := by
  have h := handlerName_append_space " get" "me now\n" "\t\u3000" (by decide) (by simp [Text.isSpace])
  have hfirst : handlerName " get" = "Get" := by decide +kernel
  have hsecond : handlerName "me now\n" = "MeNow" := by decide +kernel
  rw [h.1, hfirst, hsecond]

/-! ## §2 Letters -/

/-- The characters of a text, each with whether a word begins there. `gap` is set at the start of the text and behind
white space. -/
def places (gap : Bool) : List Char → List (Char × Bool)
  | [] => []
  | c :: rest => (c, gap && !Text.isSpace c) :: places (Text.isSpace c) rest

/-- The letter or digit that a place leaves in a handler, in the case that it has in the text. -/
def letterAt (place : Char × Bool) : Option Char :=
  if Text.isAlphanumeric place.1 then some place.1
  else if place.2 && place.1 = '\u0131' then some 'I'
  else if place.2 && place.1 = '\u017f' then some 'S'
  else none

/-- A letter in the case that it has at the place in a handler. -/
def casedAt (place : Char × Bool) (c : Char) : Char := if place.2 then c.toUpper else c

/-- What a place holds in the end is the letter that it leaves. -/
theorem filter_place (place : Char × Bool) :
    [if place.2 then Text.upper place.1 else place.1].filter Text.isAlphanumeric =
      ((letterAt place).map (casedAt place)).toList := by
  obtain ⟨c, first⟩ := place
  cases hc : Text.isAlphanumeric c with
  | true =>
    cases first with
    | true => simp [letterAt, casedAt, hc, Text.upper_of_isAlphanumeric hc, Text.isAlphanumeric_toUpper hc]
    | false => simp [letterAt, casedAt, hc]
  | false =>
    cases first with
    | false => simp [letterAt, hc]
    | true =>
      by_cases hdotless : c = '\u0131'
      · subst hdotless
        decide
      by_cases hlong : c = '\u017f'
      · subst hlong
        decide
      simp [letterAt, hc, hdotless, hlong, Text.not_isAlphanumeric_upper hc hdotless hlong]

theorem flatMap_titled_consWord (word : List Char) (words : List (List Char)) :
    (Text.consWord word words).flatMap titled = titled word ++ words.flatMap titled := by
  cases word <;> simp [Text.consWord, titled]

/-- The letters that places leave, in the case that they have in a handler. -/
def spell (ps : List (Char × Bool)) : List Char := ps.filterMap fun place => (letterAt place).map (casedAt place)

theorem spell_cons (place : Char × Bool) (ps : List (Char × Bool)) :
    spell (place :: ps) =
      [if place.2 then Text.upper place.1 else place.1].filter Text.isAlphanumeric ++ spell ps := by
  rw [filter_place, spell, List.filterMap_eq_flatMap_toList, List.flatMap_cons, ← List.filterMap_eq_flatMap_toList]
  rfl

/-- Behind white space the places of a text spell its handler. Within a word they spell the rest of the word as it is,
and then the handler of the words behind it. -/
theorem spell_places (s : List Char) :
    spell (places true s) = handlerChars s ∧
      spell (places false s) =
        ((Text.splitWords s).1 ++ (Text.splitWords s).2.flatMap titled).filter Text.isAlphanumeric := by
  -- The two statements need each other: white space sets the flag again, and a character of a word takes it away.
  induction s with
  | nil => exact ⟨rfl, rfl⟩
  | cons c s ih =>
    cases hc : Text.isSpace c with
    | true =>
      have hrest : ∀ gap, spell (places gap (c :: s)) = handlerChars s := by
        intro gap
        simp [places, hc, spell_cons, Text.not_isAlphanumeric_of_isSpace hc, ih.1]
      refine ⟨?_, ?_⟩
      · rw [hrest, handlerChars_eq, handlerChars_eq, Text.words_cons_of_isSpace hc]
      · rw [hrest, handlerChars_eq, Text.splitWords_of_isSpace hc, List.nil_append]
    | false =>
      refine ⟨?_, ?_⟩
      · rw [places, spell_cons, hc, ih.2, handlerChars_eq, Text.words_eq, Text.splitWords_of_not_isSpace hc,
          flatMap_titled_consWord]
        exact (List.filter_append [Text.upper c] _).symm
      · rw [places, spell_cons, hc, ih.2, Text.splitWords_of_not_isSpace hc]
        exact (List.filter_append [c] _).symm

theorem map_fst_places (gap : Bool) (s : List Char) : (places gap s).map Prod.fst = s := by
  induction s generalizing gap with
  | nil => rfl
  | cons c s ih => rw [places, List.map_cons, ih]

theorem filterMap_head?_consWord (word : List Char) (words : List (List Char)) :
    (Text.consWord word words).filterMap List.head? = word.head?.toList ++ words.filterMap List.head? := by
  cases word <;> simp [Text.consWord]

/-- The characters that begin a word are the first ones of the words. -/
theorem beginnings_places (s : List Char) :
    ((places true s).filter (·.2)).map Prod.fst = (Text.words s).filterMap List.head? ∧
      ((places false s).filter (·.2)).map Prod.fst = (Text.splitWords s).2.filterMap List.head? := by
  induction s with
  | nil => exact ⟨rfl, rfl⟩
  | cons c s ih =>
    cases hc : Text.isSpace c with
    | true => simp [places, hc, ih.1, Text.words_cons_of_isSpace hc, Text.splitWords_of_isSpace hc]
    | false =>
      simp [places, hc, ih.2, Text.words_eq, Text.splitWords_of_not_isSpace hc, filterMap_head?_consWord]

theorem toLower_casedAt (place : Char × Bool) (c : Char) : (casedAt place c).toLower = c.toLower := by
  unfold casedAt
  split_ifs
  · exact Char.toLower_toUpper_eq_toLower c
  · rfl

/-- In lower case the letters that places leave are those of the text. -/
theorem map_toLower_spell (ps : List (Char × Bool)) :
    (spell ps).map Char.toLower = (ps.filterMap letterAt).map Char.toLower := by
  rw [spell, List.map_filterMap, List.map_filterMap]
  apply List.filterMap_congr
  intro place _
  rw [Option.map_map]
  exact congrArg (Option.map · (letterAt place)) (funext (toLower_casedAt place))

theorem letterAt_of_not_begins {place : Char × Bool} {c : Char} (h : letterAt place = some c)
    (hplace : place.2 = false) : c = place.1 := by
  cases hc : Text.isAlphanumeric place.1 with
  | true =>
    rw [letterAt, if_pos hc] at h
    exact (Option.some.inj h).symm
  | false => simp [letterAt, hc, hplace] at h

/-- A place where no word begins leaves its letter as it is. -/
theorem forall₂_spell (ps : List (Char × Bool)) :
    List.Forall₂ (fun place c => place.2 = true ∨ c = place.1) (ps.filter fun place => (letterAt place).isSome)
      (spell ps) := by
  induction ps with
  | nil => exact .nil
  | cons place ps ih =>
    cases hletter : letterAt place with
    | none => simpa [spell, hletter] using ih
    | some c =>
      have hplace : place.2 = true ∨ casedAt place c = place.1 := by
        cases hbegins : place.2 with
        | true => exact .inl rfl
        | false => exact .inr (by simp [casedAt, hbegins, letterAt_of_not_begins hletter hbegins])
      simpa [spell, hletter] using And.intro hplace ih

/-- The full upper-case mapping gives the same handlers. -/
theorem handlerChars_eq_titleForm (s : List Char) :
    handlerChars s = ((Text.words s).flatMap (List.modifyHead Text.titleForm)).filter Text.isAlphanumeric := by
  rw [handlerChars_eq, List.filter_flatMap, List.filter_flatMap]
  apply List.flatMap_congr
  intro word _
  cases word with
  | nil => rfl
  | cons c rest =>
    have hfirst := Text.filter_titleForm c
    rw [titled, List.modifyHead_cons, ← List.singleton_append, List.filter_append, ← hfirst, ← List.filter_append]
    rfl

/-- A handler is made of letters and digits: those of the text, in their order, and one more for each word that begins
with a dotless i (an `I`) or a long s (an `S`), where that word begins. In the places where no word begins a letter
keeps its case. With the full upper-case mapping the handlers are the same. -/
theorem handlerName_letters (s : String) :
    (handlerName s).toList.all Text.isAlphanumeric = true ∧
      (handlerName s).toList.map Char.toLower =
        ((places true s.toList).filterMap letterAt).map Char.toLower ∧
      List.Forall₂ (fun place c => place.2 = true ∨ c = place.1)
        ((places true s.toList).filter fun place => (letterAt place).isSome) (handlerName s).toList ∧
      (places true s.toList).map Prod.fst = s.toList ∧
      ((places true s.toList).filter (·.2)).map Prod.fst = (Text.words s.toList).filterMap List.head? ∧
      (handlerName s).toList =
        ((Text.words s.toList).flatMap (List.modifyHead Text.titleForm)).filter Text.isAlphanumeric := by
  rw [toList_handlerName]
  refine ⟨?_, ?_, ?_, map_fst_places true s.toList, (beginnings_places s.toList).1, handlerChars_eq_titleForm s.toList⟩
  · exact List.all_eq_true.mpr fun c hc => isAlphanumeric_of_mem_handlerChars hc
  · rw [← (spell_places s.toList).1, map_toLower_spell]
  · rw [← (spell_places s.toList).1]
    exact forall₂_spell (places true s.toList)

example : handlerName "\u017ftatus of \u0131\u0131d" = "StatusOfId" := by decide +kernel

/-! ## §3 Handlers of handlers -/

/-- Letters and digits are a single word, so their handler has its first letter in upper case. -/
theorem handlerChars_of_isAlphanumeric {s : List Char} (h : ∀ c ∈ s, Text.isAlphanumeric c = true) :
    handlerChars s = s.modifyHead Char.toUpper := by
  cases s with
  | nil => rfl
  | cons c rest =>
    obtain ⟨hc, hrest⟩ := List.forall_mem_cons.mp h
    have hupper : ∀ d ∈ c.toUpper :: rest, Text.isAlphanumeric d = true :=
      List.forall_mem_cons.mpr ⟨Text.isAlphanumeric_toUpper hc, hrest⟩
    rw [handlerChars_of_no_space (List.cons_ne_nil c rest) fun d hd => Text.not_isSpace_of_isAlphanumeric (h d hd),
      titled, Text.upper_of_isAlphanumeric hc, List.filter_eq_self.mpr hupper, List.modifyHead_cons]

theorem modifyHead_toUpper_eq_self_iff (s : List Char) :
    s.modifyHead Char.toUpper = s ↔ s.head?.any Char.isLower = false := by
  cases s with
  | nil => simp
  | cons c rest =>
    rw [List.modifyHead_cons, List.cons.injEq, List.head?_cons, Option.any_some]
    constructor
    · rintro ⟨hc, -⟩
      rw [← hc]
      exact Char.isLower_toUpper_eq_false c
    · intro hc
      exact ⟨Char.toUpper_eq_of_not_isLower (by simp [hc]), rfl⟩

theorem toList_handlerName_handlerName (s : String) :
    (handlerName (handlerName s)).toList = (handlerName s).toList.modifyHead Char.toUpper := by
  rw [toList_handlerName, toList_handlerName,
    handlerChars_of_isAlphanumeric fun c hc => isAlphanumeric_of_mem_handlerChars hc]

theorem handlerName_stable_iff (s : String) :
    handlerName (handlerName s) = handlerName s ↔ (handlerName s).toList.head?.any Char.isLower = false := by
  rw [← String.toList_inj, toList_handlerName_handlerName, modifyHead_toUpper_eq_self_iff]

/-- A second application puts the first letter in upper case, and a third one does nothing. So a handler is stable
exactly if it does not begin with a small letter, as when the text begins with a letter or digit behind its white
space. A handler that is not empty is an identifier exactly if it does not begin with a digit. -/
theorem handlerName_handlerName (s : String) :
    (handlerName (handlerName s)).toList = (handlerName s).toList.modifyHead Char.toUpper ∧
      handlerName (handlerName (handlerName s)) = handlerName (handlerName s) ∧
      (handlerName (handlerName s) = handlerName s ↔
        handlerName s = "" ∨ (handlerName s).toList.head?.any Char.isLower = false) ∧
      (∀ c rest, Text.trimStart s.toList = c :: rest → Text.isAlphanumeric c = true →
        handlerName (handlerName s) = handlerName s) ∧
      (handlerName s ≠ "" →
        (isIdentifier (handlerName s) = true ↔ Text.startsWithDigit (handlerName s).toList = false)) := by
  refine ⟨toList_handlerName_handlerName s, ?_, ?_, ?_, ?_⟩
  · have htwice : Char.toUpper ∘ Char.toUpper = Char.toUpper := funext Char.toUpper_toUpper_eq_toUpper
    rw [← String.toList_inj, toList_handlerName_handlerName, toList_handlerName_handlerName,
      List.modifyHead_modifyHead, htwice]
  · rw [handlerName_stable_iff]
    refine ⟨.inr, ?_⟩
    rintro (hempty | hfirst)
    · rw [hempty]
      rfl
    · exact hfirst
  · intro c rest hs hc
    have hupper : Text.upper c = c.toUpper := Text.upper_of_isAlphanumeric hc
    obtain ⟨others, hothers⟩ := handlerChars_of_trimStart hs (Text.not_isSpace_of_isAlphanumeric hc)
      (hupper ▸ Text.isAlphanumeric_toUpper hc)
    rw [handlerName_stable_iff, toList_handlerName, hothers, hupper]
    exact Char.isLower_toUpper_eq_false c
  · intro hne
    have hchars : ∀ c ∈ (handlerName s).toList, Text.isAlphanumeric c = true := by
      rw [toList_handlerName]
      exact fun c hc => isAlphanumeric_of_mem_handlerChars hc
    rw [isIdentifier, isIdentifierChars_iff hchars]
    exact and_iff_right (mt String.toList_eq_nil_iff.mp hne)

/-- A name that begins with a character which leaves nothing is not stable yet. One that begins with a digit is stable,
and no identifier. -/
theorem handlerName_handlerName_lists :
    handlerName (handlerName "-list users") = "ListUsers" ∧
      Text.trimStart " 2 lists".toList = '2' :: " lists".toList ∧
      handlerName (handlerName " 2 lists") = handlerName " 2 lists" ∧
      handlerName " 2 lists" ≠ "" ∧ isIdentifier (handlerName " 2 lists") = false := by
  have hhyphen := (handlerName_handlerName "-list users").1
  have hdigit := handlerName_handlerName " 2 lists"
  have hlist : handlerName "-list users" = "listUsers" := by decide +kernel
  have htrim : Text.trimStart " 2 lists".toList = '2' :: " lists".toList := by decide +kernel
  have hne : handlerName " 2 lists" ≠ "" := by decide +kernel
  have hstarts : Text.startsWithDigit (handlerName " 2 lists").toList = true := by decide +kernel
  refine ⟨?_, htrim, hdigit.2.2.2.1 '2' " lists".toList htrim (by decide), hne, ?_⟩
  · rw [← String.toList_inj, hhyphen, hlist]
    rfl
  · rw [← Bool.not_eq_true, hdigit.2.2.2.2 hne, hstarts]
    decide

end RouteStubs
