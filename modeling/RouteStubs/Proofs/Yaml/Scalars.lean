import RouteStubs.Proofs.Yaml.Block
/-!
Scalars on one line.

A plain scalar is read one word after the other, up to the colon behind a key (`scanPlain_key`) or up to
the end of its line (`scanPlain_words`). In double quotes every character but the quote and the backslash
stands for itself (`scanQuoted_text`).
-/

namespace RouteStubs.Yaml

/-! ## §1 Places and gaps -/

theorem Mark.along_nil (m : Mark) : m.along [] = m := rfl

theorem Mark.along_cons (m : Mark) (c : Char) (cs : List Char) :
    m.along (c :: cs) = (m.next c).along cs := by
  simp only [Mark.along, Mark.next, Text.byteLength_cons, List.length_cons, Mark.mk.injEq, true_and]
  omega

theorem Mark.along_append (m : Mark) (s t : List Char) : m.along (s ++ t) = (m.along s).along t := by
  simp only [Mark.along, Text.byteLength_append, List.length_append, Mark.mk.injEq, true_and]
  omega

/-- A text that a line may begin with behind its indentation. -/
def BeginsLine (text : List Char) : Prop :=
  ∀ c ∈ text.head?, isBlank c = false ∧ isBreak c = false ∧ c ≠ '#'

theorem beginsLine_nil : BeginsLine [] := fun _ h => by cases h

theorem beginsLine_cons {c : Char} {text : List Char} :
    BeginsLine (c :: text) ↔ isBlank c = false ∧ isBreak c = false ∧ c ≠ '#' := by
  simp [BeginsLine]

/-- No gap is read in front of a character that is none. -/
theorem scanGap_of_solid {floor : Nat} {broken : Bool} {mark : Mark} {text : List Char}
    (h : ∀ c ∈ text.head?, isBlank c = false ∧ isBreak c = false) :
    scanGap floor broken mark text = .ok ⟨[], [], ⟨text, mark⟩⟩ := by
  cases text with
  | nil => simp only [scanGap]
  | cons c rest =>
    obtain ⟨hblank, hbreak⟩ := h c rfl
    rw [scanGap.eq_def]
    split
    case h_1 heq => cases heq
    case h_2 heq =>
      obtain ⟨rfl, -⟩ := List.cons.inj heq
      exact absurd hbreak (by decide)
    case h_3 heq =>
      obtain ⟨rfl, rfl⟩ := List.cons.inj heq
      simp [hblank, hbreak]

/-- The spaces in front of a line are read as a part of the gap that has begun before it. -/
theorem scanGap_indentation {floor column : Nat} {mark : Mark} {text : List Char}
    (h : BeginsLine text) :
    scanGap floor true mark (List.replicate column ' ' ++ text) =
      .ok ⟨[], [], ⟨text, mark.along (List.replicate column ' ')⟩⟩ := by
  induction column generalizing mark with
  | zero => exact scanGap_of_solid fun c hc => ⟨(h c hc).1, (h c hc).2.1⟩
  | succ column ih =>
    rw [List.replicate_succ, List.cons_append, scanGap.eq_def, Mark.along_cons]
    simp [isBlank, ih]

/-- The gap at the end of a line reaches up to the first character of the next. -/
theorem scanGap_lineStart {floor column : Nat} {mark : Mark} {text : List Char} (h : BeginsLine text) :
    scanGap floor false mark (lineStart column ++ text) =
      .ok ⟨[], [['\n']],
        ⟨text, (mark.nextLine 1).along (List.replicate column ' ')⟩⟩ := by
  rw [lineStart, List.cons_append, scanGap.eq_def]
  have hsize : '\n'.utf8Size = 1 := by decide
  simp [isBlank, isBreak, keptBreak, hsize, scanGap_indentation h, Except.map]

theorem scanGap_space {floor : Nat} {mark : Mark} {text : List Char}
    (h : ∀ c ∈ text.head?, isBlank c = false ∧ isBreak c = false) :
    scanGap floor false mark (' ' :: text) = .ok ⟨[' '], [], ⟨text, mark.next ' '⟩⟩ := by
  rw [scanGap.eq_def]
  simp [isBlank, scanGap_of_solid h, Except.map]

/-! ## §2 Words -/

/-- The characters of a word do not end it. -/
theorem solid_of_isWord {word : List Char} (h : isWord word = true) :
    ∀ c ∈ word, isBlank c = false ∧ isBreak c = false := by
  intro c hc
  simp only [isWord, isLineChar, Bool.and_eq_true, List.all_eq_true, Bool.not_eq_true'] at h
  exact ⟨(h.1.2 c hc).2, (h.1.2 c hc).1.2⟩

theorem ne_nil_of_isWord {word : List Char} (h : isWord word = true) : word ≠ [] := by
  rintro rfl
  cases h

/-- The text starts with something that a word ends in front of. -/
def EndsWord (text : List Char) : Prop := plainWord false text = ([], false)

theorem endsWord_gap {c : Char} (h : (isBlank c || isBreak c) = true) (text : List Char) :
    EndsWord (c :: text) := by
  rw [EndsWord, plainWord, if_pos h]

theorem endsWord_colon {text : List Char} (h : atGap text = true) : EndsWord (':' :: text) := by
  have hcolon : ¬ (isBlank ':' || isBreak ':') = true := by decide
  rw [EndsWord, plainWord, if_neg hcolon]
  simp [h]

/-- A word is read up to its end. -/
theorem plainWord_append {word rest : List Char}
    (hsolid : ∀ c ∈ word, isBlank c = false ∧ isBreak c = false) (hlast : word.getLast? ≠ some ':')
    (hrest : EndsWord rest) : plainWord false (word ++ rest) = (word, false) := by
  induction word with
  | nil => exact hrest
  | cons c word ih =>
    obtain ⟨hblank, hbreak⟩ := hsolid c (List.mem_cons_self ..)
    have hsolid' := fun d hd => hsolid d (List.mem_cons_of_mem c hd)
    -- a colon is not the last character, so what follows it is a character of the word
    have hcolon : (decide (c = ':') && atGap (word ++ rest)) = false := by
      cases word with
      | nil =>
        have hne : c ≠ ':' := fun heq => hlast (by rw [heq]; rfl)
        simp [hne]
      | cons d word =>
        obtain ⟨hd, hd'⟩ := hsolid' d (List.mem_cons_self ..)
        simp [atGap, hd, hd']
    have hlast' : word.getLast? ≠ some ':' := by
      cases word with
      | nil => simp
      | cons d word => simpa using hlast
    rw [List.cons_append, plainWord, ih hsolid' hlast']
    simp [hblank, hbreak, hcolon]

theorem plainWord_word {word rest : List Char} (h : isWord word = true) (hrest : EndsWord rest) :
    plainWord false (word ++ rest) = (word, false) := by
  refine plainWord_append (solid_of_isWord h) ?_ hrest
  simp only [isWord, Bool.and_eq_true, bne_iff_ne, ne_eq] at h
  exact h.2

/-! ## §3 Plain scalars -/

/-- One word is read, and what is read next depends on the gap behind it. -/
theorem plainWords_succ {floor fuel : Nat} {start stop : Mark} {pieces : List (List Char)} {gap after : Gap}
    {word rest : List Char} (hrest : gap.cursor.rest = word ++ rest) (hword : isWord word = true)
    (hmark : gap.cursor.atDocumentMarker = false) (hcomment : word.head? ≠ some '#')
    (hends : EndsWord rest)
    (hafter : scanGap floor false (gap.cursor.mark.along word) rest = .ok after) :
    plainWords false floor start (fuel + 1) pieces stop gap =
      let pieces := word :: gap.folded :: pieces
      let stop := gap.cursor.mark.along word
      if (after.blanks.isEmpty && after.breaks.isEmpty) || decide (after.cursor.mark.column < floor) then
        .ok ⟨pieces.reverse.flatten, stop, after.isBroken, after.cursor⟩
      else plainWords false floor start fuel pieces stop after := by
  have hne := ne_nil_of_isWord hword
  have hhead : ¬ (word ++ rest).head? = some '#' := by
    obtain ⟨c, cs, rfl⟩ := List.exists_cons_of_ne_nil hne
    exact hcomment
  have hempty : word.isEmpty = false := by simpa using hne
  rw [plainWords]
  simp only [hmark, hrest, hhead, plainWord_word hword hends, hempty, List.drop_left, hafter,
    Bool.false_or, Bool.not_false, Bool.true_and, Bool.false_eq_true, decide_false, if_false]

theorem isWord_of_isLaterWord {word : List Char} (h : isLaterWord word = true) :
    isWord word = true ∧ word.head? ≠ some '#' := by
  simpa [isLaterWord] using h

/-- A word and its gap do not begin at the start of a line. -/
theorem atDocumentMarker_of_column {cursor : Cursor} (h : cursor.mark.column ≠ 0) :
    cursor.atDocumentMarker = false := by
  simp [Cursor.atDocumentMarker, h]

theorem length_le_joinWords (first : List Char) (others : List (List Char)) :
    others.length ≤ (joinWords first others).length := by
  induction others generalizing first with
  | nil => exact Nat.zero_le _
  | cons next others ih =>
    have := ih next
    simp only [joinWords_cons, List.length_append, List.length_cons]
    omega

/-- A text that begins with a word begins with no gap. -/
theorem solid_head_joinWords {word : List Char} (h : isWord word = true) (others : List (List Char))
    (rest : List Char) :
    ∀ c ∈ (joinWords word others ++ rest).head?, isBlank c = false ∧ isBreak c = false := by
  obtain ⟨d, word, rfl⟩ := List.exists_cons_of_ne_nil (ne_nil_of_isWord h)
  rintro c ⟨⟩
  exact solid_of_isWord h d (List.mem_cons_self ..)

/-- Words are read up to something that a word ends in front of, where the scalar stops: there is no gap,
or what follows the gap is not indented as far as the scalar has to be. -/
theorem plainWords_words {floor : Nat} {start : Mark} {rest : List Char} {after : Mark → Gap}
    (hends : EndsWord rest) (hafter : ∀ mark, scanGap floor false mark rest = .ok (after mark))
    (hstops : ∀ mark, (after mark).blanks.isEmpty && (after mark).breaks.isEmpty ||
      decide ((after mark).cursor.mark.column < floor))
    {others : List (List Char)} (hothers : others.all isLaterWord = true) {word : List Char}
    (hword : isWord word = true) (hcomment : word.head? ≠ some '#') {fuel : Nat}
    (hfuel : others.length < fuel) {pieces : List (List Char)} {stop : Mark} {gap : Gap}
    (hrest : gap.cursor.rest = joinWords word others ++ rest)
    (hmark : gap.cursor.atDocumentMarker = false) (hfloor : floor ≤ gap.cursor.mark.column + 1) :
    plainWords false floor start fuel pieces stop gap =
      let stop := gap.cursor.mark.along (joinWords word others)
      .ok ⟨pieces.reverse.flatten ++ gap.folded ++ joinWords word others, stop, (after stop).isBroken,
        (after stop).cursor⟩ := by
  induction others generalizing word fuel pieces stop gap with
  | nil =>
    obtain ⟨fuel, rfl⟩ := Nat.exists_eq_succ_of_ne_zero (Nat.ne_zero_of_lt hfuel)
    rw [joinWords, List.flatMap_nil, List.append_nil] at hrest ⊢
    rw [plainWords_succ hrest hword hmark hcomment hends (hafter _)]
    simp [hstops]
  | cons next others ih =>
    obtain ⟨fuel, rfl⟩ := Nat.exists_eq_succ_of_ne_zero (Nat.ne_zero_of_lt hfuel)
    obtain ⟨hnext, hothers⟩ : isLaterWord next = true ∧ others.all isLaterWord = true := by
      simpa using hothers
    obtain ⟨hnextWord, hnextComment⟩ := isWord_of_isLaterWord hnext
    rw [joinWords_cons, List.append_assoc, List.cons_append] at hrest
    rw [plainWords_succ hrest hword hmark hcomment (endsWord_gap (by decide) _)
      (scanGap_space (solid_head_joinWords hnextWord others _))]
    have hcolumn : ¬ (((gap.cursor.mark.along word).next ' ').column < floor) := by
      simp only [Mark.next, Mark.along]
      omega
    simp only [List.isEmpty_cons, Bool.false_and, Bool.false_or, hcolumn, decide_false,
      Bool.false_eq_true, if_false]
    rw [ih hothers hnextWord hnextComment (by simpa using hfuel) rfl
      (atDocumentMarker_of_column (by simp [Mark.next])) (by simp only; omega)]
    simp [joinWords_cons, Gap.folded, Mark.along_append, Mark.along_cons]

theorem head_ne_of_startsPlain {word : List Char} (h : Scan.startsPlain false word = true) :
    word.head? ≠ some '#' := by
  intro hhead
  obtain ⟨word, rfl⟩ : ∃ rest, word = '#' :: rest := by
    cases word with
    | nil => cases hhead
    | cons c rest => exact ⟨rest, by rw [Option.some.inj hhead]⟩
  simp [Scan.startsPlain] at h

/-- A document marker is a hyphen or a dot three times, and a gap behind. -/
theorem atDocumentMarker_of_solid {cursor : Cursor}
    (h : ∀ c rest, c = '-' ∨ c = '.' → cursor.rest = c :: c :: c :: rest → atGap rest = false) :
    cursor.atDocumentMarker = false := by
  rw [Cursor.atDocumentMarker, Bool.and_eq_false_iff]
  right
  split
  case h_1 heq => exact h _ _ (.inl rfl) heq
  case h_2 heq => exact h _ _ (.inr rfl) heq
  case h_3 => rfl

/-- A word that is no document marker begins no text that starts with one. -/
theorem atDocumentMarker_of_isWord {word rest : List Char} {mark : Mark} (h : isWord word = true)
    (hmarker : isDocumentMarker word = false) (hrest : ∀ c ∈ rest.head?, c = ' ' ∨ c = ':') :
    (⟨word ++ rest, mark⟩ : Cursor).atDocumentMarker = false := by
  refine atDocumentMarker_of_solid fun x more hx heq => ?_
  replace heq : word ++ rest = x :: x :: x :: more := heq
  have hother : ∀ {behind : List Char}, rest ≠ x :: behind := by
    rintro behind rfl
    rcases hx with rfl | rfl <;> rcases hrest _ rfl with h | h <;> cases h
  -- so what follows the word is none of the three characters, and the word is as long as they are
  match word with
  | [] => exact absurd heq hother
  | [_] => exact absurd (List.cons.inj heq).2 hother
  | [_, _] => exact absurd (List.cons.inj (List.cons.inj heq).2).2 hother
  | [_, _, _] =>
    simp only [List.cons_append, List.nil_append, List.cons.injEq] at heq
    obtain ⟨rfl, rfl, rfl, -⟩ := heq
    rcases hx with rfl | rfl <;> cases hmarker
  | _ :: _ :: _ :: d :: word =>
    simp only [List.cons_append, List.cons.injEq] at heq
    obtain ⟨hblank, hbreak⟩ := solid_of_isWord h d (by simp)
    rw [← heq.2.2.2, atGap, hblank, hbreak]
    rfl

theorem KeyWords.ne_nil {key first : List Char} {others : List (List Char)}
    (h : KeyWords key first others) : key ≠ [] := by
  rw [h.eq_join, joinWords]
  exact List.append_ne_nil_of_left_ne_nil (ne_nil_of_isWord (isFirstWord_iff.mp h.isFirst).1) _

theorem KeyWords.atDocumentMarker {key first more : List Char} {others : List (List Char)} {mark : Mark}
    (h : KeyWords key first others) : (⟨key ++ ':' :: more, mark⟩ : Cursor).atDocumentMarker = false := by
  rw [h.eq_join, joinWords, List.append_assoc]
  refine atDocumentMarker_of_isWord (isFirstWord_iff.mp h.isFirst).1 h.notMarker fun c hc => ?_
  cases others with
  | nil => exact .inr (Option.some.inj hc).symm
  | cons next others => exact .inl (Option.some.inj hc).symm

/-- **A key is read up to its colon.** -/
theorem scanPlain_key {floor : Nat} {cursor : Cursor} {key more : List Char}
    (hrest : cursor.rest = key ++ ':' :: more) (hkey : isKey key = true) (hgap : atGap more = true)
    (hfloor : floor ≤ cursor.mark.column + 1) :
    scanPlain false floor cursor = .ok ⟨key, cursor.mark.along key, false,
      ⟨':' :: more, cursor.mark.along key⟩⟩ := by
  obtain ⟨first, others, h⟩ := keyWords_of_isKey hkey
  obtain ⟨hword, hstarts, -⟩ := isFirstWord_iff.mp h.isFirst
  obtain ⟨rest, mark⟩ := cursor
  obtain rfl : rest = key ++ ':' :: more := hrest
  have hmark : (⟨key ++ ':' :: more, mark⟩ : Cursor).atDocumentMarker = false := h.atDocumentMarker
  have hcolon : ∀ c ∈ (':' :: more).head?, isBlank c = false ∧ isBreak c = false := by
    rintro c ⟨⟩
    decide
  obtain rfl := h.eq_join
  have hfuel : others.length < (joinWords first others ++ ':' :: more).length + 1 := by
    rw [List.length_append]
    have := length_le_joinWords first others
    omega
  have hgap' : (⟨[], [], ⟨joinWords first others ++ ':' :: more, mark⟩⟩ : Gap).cursor.rest =
      joinWords first others ++ ':' :: more := rfl
  rw [scanPlain, plainWords_words (endsWord_colon hgap) (fun _ => scanGap_of_solid hcolon) (fun _ => rfl)
    h.areLater hword (head_ne_of_startsPlain hstarts) hfuel hgap' hmark hfloor]
  simp [Gap.folded, Gap.isBroken]

/-- **The words behind a key are read up to the end of the line**, with the gap in front of the next. -/
theorem scanPlain_words {floor column : Nat} {cursor : Cursor} {first : List Char}
    {others : List (List Char)} {text : List Char}
    (hrest : cursor.rest = joinWords first others ++ (lineStart column ++ text))
    (hfirst : isFirstWord first = true) (hothers : others.all isLaterWord = true)
    (htext : BeginsLine text) (hcolumn : column < floor) (hfloor : floor ≤ cursor.mark.column) :
    scanPlain false floor cursor =
      let stop := cursor.mark.along (joinWords first others)
      .ok ⟨joinWords first others, stop, true,
        ⟨text, (stop.nextLine 1).along (List.replicate column ' ')⟩⟩ := by
  obtain ⟨hword, hstarts, -⟩ := isFirstWord_iff.mp hfirst
  have hfuel : others.length < cursor.rest.length + 1 := by
    rw [hrest, List.length_append]
    have := length_le_joinWords first others
    omega
  have hgap : (⟨[], [], cursor⟩ : Gap).cursor.rest =
      joinWords first others ++ (lineStart column ++ text) := hrest
  have hends : EndsWord (lineStart column ++ text) := endsWord_gap (by decide) _
  have hstops : ∀ mark : Mark, (List.isEmpty ([] : List Char) && List.isEmpty [['\n']] ||
      decide (((mark.nextLine 1).along (List.replicate column ' ')).column < floor)) = true := by
    intro mark
    simp [Mark.along, Mark.nextLine, hcolumn]
  rw [scanPlain, plainWords_words hends (fun _ => scanGap_lineStart htext) hstops hothers hword
    (head_ne_of_startsPlain hstarts) hfuel hgap (atDocumentMarker_of_column (by simp only; omega))
    (by simp only; omega)]
  simp [Gap.folded, Gap.isBroken]

/-! ## §4 Scalars in quotes -/

theorem isQuotable_iff {c : Char} : isQuotable c = true ↔
    isPermitted c = true ∧ isBreak c = false ∧ c ≠ '"' ∧ c ≠ '\\' := by
  simp [isQuotable, isLineChar, and_assoc]

/-- A run of blanks is a gap of these blanks. -/
theorem scanGap_blanks {floor : Nat} {blanks text : List Char} (hblanks : ∀ c ∈ blanks, isBlank c = true)
    (htext : ∀ c ∈ text.head?, isBlank c = false ∧ isBreak c = false) (mark : Mark) :
    scanGap floor false mark (blanks ++ text) = .ok ⟨blanks, [], ⟨text, mark.along blanks⟩⟩ := by
  induction blanks generalizing mark with
  | nil => exact scanGap_of_solid htext
  | cons c blanks ih =>
    have hc := hblanks c (List.mem_cons_self ..)
    have hreturn : c ≠ '\r' := by
      rintro rfl
      cases hc
    have hrest := ih (fun d hd => hblanks d (List.mem_cons_of_mem c hd)) (mark.next c)
    rw [List.cons_append, scanGap.eq_def, Mark.along_cons]
    simp [hc, hrest, hreturn, Except.map]

/-- A quoted text that starts with a blank is a run of blanks and what is left, which starts with none. -/
theorem exists_blanks {c : Char} {text : List Char} (hc : isBlank c = true)
    (htext : ∀ d ∈ c :: text, isQuotable d = true) :
    ∃ blanks left, c :: text = blanks ++ left ∧ (∀ d ∈ blanks, isBlank d = true) ∧
      (∀ rest, ∀ d ∈ (left ++ '"' :: rest).head?, isBlank d = false ∧ isBreak d = false) ∧
      left.length < (c :: text).length := by
  have hsplit := List.takeWhile_append_dropWhile (p := isBlank) (l := c :: text)
  refine ⟨(c :: text).takeWhile isBlank, (c :: text).dropWhile isBlank, hsplit.symm,
    fun d hd => List.all_eq_true.mp List.all_takeWhile d hd, ?_, ?_⟩
  · intro rest d hd
    cases hleft : (c :: text).dropWhile isBlank with
    | nil =>
      rw [hleft] at hd
      obtain ⟨⟩ := hd
      decide
    | cons e left =>
      rw [hleft] at hd
      obtain ⟨⟩ := hd
      have hd : d ∈ c :: text := by
        rw [← hsplit, hleft]
        exact List.mem_append_right _ (List.mem_cons_self ..)
      have hblank := List.head?_dropWhile_not isBlank (c :: text)
      rw [hleft] at hblank
      exact ⟨by simpa using hblank, (isQuotable_iff.mp (htext d hd)).2.1⟩
  · rw [List.dropWhile_cons_of_pos hc]
    exact Nat.lt_succ_of_le (List.dropWhile_suffix isBlank).length_le

/-- What is left of a quoted text is read up to the quote. -/
theorem quotedPieces_text {start : Mark} {rest : List Char} {fuel : Nat} {text : List Char}
    (htext : ∀ c ∈ text, isQuotable c = true) (hfuel : text.length < fuel) (pieces : List (List Char))
    (cursor : Cursor) (hrest : cursor.rest = text ++ '"' :: rest) (hcolumn : cursor.mark.column ≠ 0) :
    quotedPieces '"' start fuel pieces cursor =
      .ok (pieces.reverse.flatten ++ text, ⟨rest, (cursor.mark.along text).next '"'⟩) := by
  induction fuel generalizing text pieces cursor with
  | zero => exact absurd hfuel (Nat.not_lt_zero _)
  | succ fuel ih =>
    obtain ⟨_, mark⟩ := cursor
    obtain rfl : _ = text ++ '"' :: rest := hrest
    have hmark := atDocumentMarker_of_column hcolumn
    cases text with
    | nil =>
      rw [quotedPieces, hmark]
      simp [Cursor.skip, Mark.along_nil]
    | cons c text =>
      obtain ⟨-, hbreak, hquote, hescape⟩ := isQuotable_iff.mp (htext c (List.mem_cons_self ..))
      rw [quotedPieces, hmark]
      by_cases hblank : isBlank c = true
      case pos =>
        obtain ⟨blanks, left, hsplit, hblanks, hleft, hlength⟩ := exists_blanks hblank htext
        have hgap : quotedGap false ⟨c :: text ++ '"' :: rest, mark⟩ =
            (blanks, ⟨left ++ '"' :: rest, mark.along blanks⟩) := by
          rw [quotedGap, hsplit, List.append_assoc, scanGap_blanks hblanks (hleft rest)]
          rfl
        have htext' : ∀ d ∈ left, isQuotable d = true := by
          intro d hd
          exact htext d (hsplit ▸ List.mem_append_right _ hd)
        have hcolumn' : (mark.along blanks).column ≠ 0 := by
          replace hcolumn : mark.column ≠ 0 := hcolumn
          simp only [Mark.along]
          omega
        have hnext := ih htext' (by omega) (blanks :: pieces) ⟨left ++ '"' :: rest, mark.along blanks⟩ rfl
          hcolumn'
        rw [List.cons_append] at hgap
        simp only [List.cons_append, hquote, hescape, hblank, hgap, hnext, Bool.true_or, if_true,
          Bool.false_eq_true, if_false, decide_false, Bool.false_and]
        rw [hsplit, Mark.along_append, List.reverse_cons, List.flatten_append, List.flatten_singleton,
          List.append_assoc]
      case neg =>
        have hnext := ih (fun d hd => htext d (List.mem_cons_of_mem c hd)) (by simpa using hfuel)
          ([c] :: pieces) ⟨text ++ '"' :: rest, mark.next c⟩ rfl (by simp [Mark.next])
        simp [hquote, hescape, hblank, hbreak, Cursor.skip, hnext, Mark.along_cons]

/-- **A text in double quotes is read as it is.** -/
theorem scanQuoted_text {cursor : Cursor} {text rest : List Char}
    (hrest : cursor.rest = '"' :: (text ++ '"' :: rest)) (htext : text.all isQuotable = true) :
    scanQuoted '"' cursor =
      .ok (text, ⟨rest, ((cursor.mark.next '"').along text).next '"'⟩) := by
  have hskip : cursor.skip = ⟨text ++ '"' :: rest, cursor.mark.next '"'⟩ := by
    rw [Cursor.skip, hrest]
  have hfuel : text.length < cursor.rest.length + 1 := by
    rw [hrest, List.length_cons, List.length_append]
    omega
  rw [scanQuoted, hskip, quotedPieces_text (List.all_eq_true.mp htext) hfuel [] _ rfl (by simp [Mark.next])]
  simp

end RouteStubs.Yaml
