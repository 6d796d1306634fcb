import RouteStubs.Proofs.Yaml.Reading
import RouteStubs.Yaml.Token.Plain
import RouteStubs.Yaml.Token.Block
import RouteStubs.Yaml.Token.Property
/-!
Every function that reads a single token goes over the text from left to right.

Scalars, anchors, tags and directives are each read from a cursor to one that reading leads to, or fail at the place
of one (`Cursor.Reads`). A plain scalar and a directive have their end apart from the cursor behind them, and that is
a place on the way to it (`Cursor.Passes`).
-/

namespace RouteStubs.Yaml

open Cursor

/-! ## §1 Plain scalars -/

theorem plainWord_spec (inFlow : Bool) (text : List Char) :
    (∀ x ∈ (plainWord inFlow text).1, isBreak x = false) ∧ (plainWord inFlow text).1 <+: text := by
  fun_induction plainWord inFlow text with
  | case1 => exact ⟨List.forall_mem_nil _, List.prefix_rfl⟩
  | case2 => exact ⟨List.forall_mem_nil _, List.nil_prefix⟩
  | case3 => exact ⟨List.forall_mem_nil _, List.nil_prefix⟩
  | case4 => exact ⟨List.forall_mem_nil _, List.nil_prefix⟩
  | case5 c rest hgap _ _ word stuck hword ih =>
    rw [hword] at ih
    have hc : isBreak c = false := by
      simp only [Bool.or_eq_true, not_or, Bool.not_eq_true] at hgap
      exact hgap.2
    exact ⟨List.forall_mem_cons.mpr ⟨hc, ih.1⟩, (List.prefix_cons_inj c).mpr ih.2⟩

theorem leadsTo_plainWord (inFlow : Bool) (c : Cursor) :
    c.LeadsTo ⟨c.rest.drop (plainWord inFlow c.rest).1.length, c.mark.along (plainWord inFlow c.rest).1⟩ := by
  obtain ⟨rest, mark⟩ := c
  obtain ⟨hword, hprefix⟩ := plainWord_spec inFlow rest
  have h := leadsTo_along hword (rest.drop (plainWord inFlow rest).1.length) mark
  rw [List.prefix_iff_eq_append.mp hprefix] at h
  exact h

/-- A plain scalar stops on the way to the cursor behind it. -/
theorem gives_plainWords {c : Cursor} (inFlow : Bool) (floor : Nat) (start : Mark) (fuel : Nat)
    (pieces : List (List Char)) {stop : Mark} {gap : Gap} (h : c.Passes gap.cursor stop) :
    Gives c.Sees (fun plain => c.Passes plain.cursor plain.stop)
      (plainWords inFlow floor start fuel pieces stop gap) := by
  induction fuel generalizing pieces stop gap with
  | zero => exact .ok h
  | succ fuel ih =>
    have hword := leadsTo_plainWord inFlow gap.cursor
    rw [plainWords]
    generalize plainWord inFlow gap.cursor.rest = word at hword ⊢
    obtain ⟨word, stuck⟩ := word
    have hafter := h.leadsTo.trans hword
    have hgap := skips_scanGap floor false (gap.cursor.mark.along word) (gap.cursor.rest.drop word.length)
    dsimp only at hword hafter hgap ⊢
    generalize scanGap floor false (gap.cursor.mark.along word) (gap.cursor.rest.drop word.length) = next at hgap ⊢
    split_ifs
    · exact .ok h
    · exact .error hafter.sees
    · exact .ok h
    · cases next with
      | error tab => exact .error (Sees.of_leadsTo hafter hgap.of_error)
      | ok next =>
        have hnext : c.Passes next.cursor (gap.cursor.mark.along word) := hafter.passes_end.trans hgap.of_ok
        dsimp only
        split
        · exact .ok hnext
        · exact ih _ hnext

theorem gives_scanPlain (inFlow : Bool) (floor : Nat) (c : Cursor) :
    Gives c.Sees (fun plain => c.Passes plain.cursor plain.stop) (scanPlain inFlow floor c) :=
  gives_plainWords inFlow floor _ _ _ (LeadsTo.refl c).passes_end

/-! ## §2 Quoted scalars -/

theorem leadsTo_quotedGap (broken : Bool) (c : Cursor) : c.LeadsTo (quotedGap broken c).2 := by
  have h := skips_scanGap 0 broken c.mark c.rest
  rw [quotedGap]
  cases hgap : scanGap 0 broken c.mark c.rest with
  | error tab => exact .refl c
  | ok gap =>
    rw [hgap] at h
    exact h.of_ok

theorem not_isBreak_of_hexValue? {c : Char} {n : Nat} (h : hexValue? c = some n) : isBreak c = false := by
  have hsome : (hexValue? c).isSome = true := by rw [h]; rfl
  exact not_isBreak_of (p := fun c => (hexValue? c).isSome) (by decide) hsome

theorem not_isBreak_of_hexNumber? {n value code : Nat} {text : List Char} (h : hexNumber? n value text = some code) :
    ∀ x ∈ text.take n, isBreak x = false := by
  induction n generalizing value text with
  | zero => simp
  | succ n ih =>
    cases text with
    | nil => simp
    | cons c rest =>
      obtain ⟨digit, hdigit, hrest⟩ := Option.bind_eq_some_iff.mp h
      exact List.forall_mem_cons.mpr ⟨not_isBreak_of_hexValue? hdigit, ih hrest⟩

/-- A line break has no meaning behind a backslash. -/
theorem not_isBreak_of_escape {c : Char} (h : Escape.ofChar c ≠ .unknown) : isBreak c = false := by
  refine Bool.eq_false_iff.mpr fun hbreak => h ?_
  rcases isBreak_iff.mp hbreak with rfl | rfl | rfl | rfl | rfl <;> rfl

theorem reads_scanEscape (start : Mark) {c : Cursor} (h : c.rest.head? = some '\\') :
    c.Reads Prod.snd (scanEscape start c) := by
  obtain ⟨rest, mark⟩ := c
  rw [scanEscape]
  split
  case h_2 => exact .error (sees_mark _)
  case h_1 x c rest' heq =>
    obtain rfl : rest = x :: c :: rest' := heq
    obtain rfl : x = '\\' := Option.some.inj h
    have hafter (hc : isBreak c = false) :
        LeadsTo ⟨'\\' :: c :: rest', mark⟩ (skipN 2 ⟨'\\' :: c :: rest', mark⟩) :=
      leadsTo_skipN (by simp [hc]; decide)
    split
    case h_1 hescape => exact .ok (hafter (not_isBreak_of_escape (by simp [hescape])))
    case h_2 digits hescape =>
      have hcode := hafter (not_isBreak_of_escape (by simp [hescape]))
      dsimp only
      cases hnumber : hexNumber? digits 0 rest' with
      | none => exact .error hcode.sees
      | some code =>
        dsimp only
        split
        · exact .error hcode.sees
        · exact .ok (hcode.trans (leadsTo_skipN (not_isBreak_of_hexNumber? hnumber)))
    case h_3 => exact .error (sees_mark _)

theorem reads_quotedPieces {quote : Char} (hquote : isBreak quote = false) (start : Mark) (fuel : Nat)
    (pieces : List (List Char)) (c : Cursor) : c.Reads Prod.snd (quotedPieces quote start fuel pieces c) := by
  induction fuel generalizing pieces c with
  | zero => exact .error (sees_mark c)
  | succ fuel ih =>
    rw [quotedPieces]
    split
    case isTrue => exact .error (sees_mark c)
    case isFalse =>
      split
      case h_1 => exact .error (sees_mark c)
      case h_2 x rest heq =>
        have hhead : c.rest.head? = some x := by rw [heq]; rfl
        split_ifs with hend htwice hescape hjoined hgap
        · -- a quote that is written twice
          simp only [Bool.and_eq_true, decide_eq_true_eq] at htwice
          obtain ⟨rest', rfl⟩ := List.head?_eq_some_iff.mp htwice.2
          refine (ih _ _).of_leadsTo (leadsTo_skipN fun y hy => ?_)
          have hy : y = '\'' := by simpa [heq, hend, htwice.1] using hy
          rw [hy]
          decide
        · exact .ok (leadsTo_skip_of (hend ▸ hquote) hhead)
        · -- a backslash at the end of a line
          obtain rfl : x = '\\' := by simp at hescape; exact hescape.1
          have hskip : c.LeadsTo c.skip.skipBreak :=
            (leadsTo_skip_of (by decide) hhead).trans (leadsTo_skipBreak _)
          exact (ih _ _).of_leadsTo (hskip.trans (leadsTo_quotedGap true _))
        · obtain rfl : x = '\\' := by simp at hescape; exact hescape.1
          have hread := reads_scanEscape start hhead
          cases hresult : scanEscape start c with
          | error e => exact .error (hresult ▸ hread).of_error
          | ok result => exact (ih _ _).of_leadsTo (hresult ▸ hread).of_ok
        · exact (ih _ _).of_leadsTo (leadsTo_quotedGap false c)
        · refine (ih _ _).of_leadsTo (leadsTo_skip_of ?_ hhead)
          simp at hgap
          exact hgap.2

theorem reads_scanQuoted {quote : Char} (hquote : isBreak quote = false) {c : Cursor}
    (h : c.rest.head? = some quote) : c.Reads Prod.snd (scanQuoted quote c) :=
  (reads_quotedPieces hquote _ _ _ _).of_leadsTo (leadsTo_skip_of hquote h)

/-! ## §3 Block scalars -/

theorem leadsTo_scanChomping (c : Cursor) : c.LeadsTo (scanChomping c).2 := by
  rw [scanChomping]
  split
  case h_1 heq => exact leadsTo_skip_of (x := '+') (by decide) (by rw [heq]; rfl)
  case h_2 heq => exact leadsTo_skip_of (x := '-') (by decide) (by rw [heq]; rfl)
  case h_3 => exact .refl c

theorem reads_scanIncrement (start : Mark) (c : Cursor) : c.Reads Prod.snd (scanIncrement start c) := by
  rw [scanIncrement]
  split
  case h_1 x rest heq =>
    split_ifs with hzero hdigit
    · exact .error (sees_mark c)
    · have hx : isBreak x = false := not_isBreak_of (p := fun x => '1' ≤ x && x ≤ '9') (by decide) hdigit
      exact .ok (leadsTo_skip_of hx (by rw [heq]; rfl))
    · exact .ok (.refl c)
  case h_2 => exact .ok (.refl c)

theorem reads_scanBlockHeader (start : Mark) (c : Cursor) :
    c.Reads (fun header => header.2.2) (scanBlockHeader start c) := by
  have hsign := leadsTo_scanChomping c
  rw [scanBlockHeader]
  generalize scanChomping c = sign at hsign ⊢
  obtain ⟨_ | chomping, c'⟩ := sign
  · refine Reads.of_leadsTo hsign ((reads_scanIncrement start c').bind ?_)
    rintro ⟨_ | increment, c''⟩
    · exact .ok (.refl c'')
    · exact .ok (leadsTo_scanChomping c'')
  · refine Reads.of_leadsTo hsign ((reads_scanIncrement start c').bind ?_)
    rintro ⟨increment, c''⟩
    exact .ok (.refl c'')

theorem skips_scanIndentation (limit : Option Nat) (deepest : Nat) (mark : Mark) (rest : List Char) :
    Skips ⟨rest, mark⟩ Indentation.cursor (scanIndentation limit deepest mark rest) := by
  fun_induction scanIndentation limit deepest mark rest with
  | case1 => exact .ok (.refl _)
  | case2 deepest mark rest ih => exact ih.map (fun _ => rfl) (.pair (.refl _))
  | case3 deepest mark c rest _ _ hspace ih =>
    obtain rfl : c = ' ' := by simp at hspace; exact hspace.2
    exact ih.of_leadsTo (.char (by decide) (.refl _))
  | case4 => exact .error (sees_mark _)
  | case5 deepest mark c rest hpair _ _ _ hbreak ih => exact ih.map (fun _ => rfl) (leadsTo_break hbreak hpair mark)
  | case6 => exact .ok (.refl _)

theorem reads_blockLines (folded : Bool) (start : Mark) (indent fuel : Nat) (lines : BlockLines) (c : Cursor) :
    c.Reads Prod.snd (blockLines folded start indent fuel lines c) := by
  induction fuel generalizing lines c with
  | zero => exact .ok (.refl c)
  | succ fuel ih =>
    have hline : c.LeadsTo (c.takeWhile fun x => !isBreak x).2 := leadsTo_takeWhile (fun _ hx => by simpa using hx) c
    rw [blockLines]
    split
    case isTrue => exact .ok (.refl c)
    case isFalse =>
      have hbreak := hline.trans (leadsTo_readBreak _)
      dsimp only
      generalize (c.takeWhile fun x => !isBreak x).2.readBreak = next at hbreak ⊢
      have hnext := skips_scanIndentation (some indent) 0 next.2.mark next.2.rest
      generalize scanIndentation (some indent) 0 next.2.mark next.2.rest = indentation at hnext ⊢
      cases indentation with
      | error tab => exact .error (Sees.of_leadsTo hbreak hnext.of_error)
      | ok indentation => exact (ih _ _).of_leadsTo (hbreak.trans hnext.of_ok)

theorem reads_scanBlock (folded : Bool) (parent : Int) {c : Cursor}
    (h : ∀ x, c.rest.head? = some x → isBreak x = false) : c.Reads Prod.snd (scanBlock folded parent c) := by
  refine Reads.of_leadsTo (leadsTo_skip h) ((reads_scanBlockHeader c.mark c.skip).bind ?_)
  rintro ⟨chomping, increment, c'⟩
  have hcomment : c'.LeadsTo c'.skipBlanks.skipComment := (leadsTo_skipBlanks c').trans (leadsTo_skipComment _)
  refine Reads.of_leadsTo hcomment ?_
  dsimp only
  generalize c'.skipBlanks.skipComment = c''
  split
  · exact .error (sees_mark c'')
  refine Reads.of_leadsTo (leadsTo_skipBreak c'') ?_
  generalize c''.skipBreak = first
  generalize increment.map (fun n => (if 0 ≤ parent then parent.toNat else 0) + n) = given
  have hnext := skips_scanIndentation given 0 first.mark first.rest
  generalize scanIndentation given 0 first.mark first.rest = indentation at hnext ⊢
  cases indentation with
  | error tab => exact .error hnext.of_error
  | ok indentation =>
    refine Reads.of_leadsTo hnext.of_ok ((reads_blockLines ..).bind fun lines => ?_)
    exact .ok (.refl _)

/-! ## §4 Anchors and tags -/

theorem leadsTo_takeWord (c : Cursor) : c.LeadsTo (c.takeWhile isWordChar).2 :=
  leadsTo_takeWhile (fun _ => not_isBreak_of (by decide)) c

theorem reads_scanAnchorName (construct : Construct) {c : Cursor}
    (h : ∀ x, c.rest.head? = some x → isBreak x = false) :
    c.Reads Prod.snd (scanAnchorName construct c) := by
  have hname : c.LeadsTo (c.skip.takeWhile isWordChar).2 := (leadsTo_skip h).trans (leadsTo_takeWord c.skip)
  rw [scanAnchorName]
  dsimp only
  split
  · exact .error hname.sees
  · exact .ok hname

theorem reads_scanOctet (construct : Construct) (start : Mark) (c : Cursor) :
    c.Reads Prod.snd (scanOctet construct start c) := by
  obtain ⟨rest, mark⟩ := c
  rw [scanOctet]
  split
  case h_1 a b rest' heq =>
    obtain rfl : rest = '%' :: a :: b :: rest' := heq
    split
    case h_1 ha hb =>
      refine .ok (leadsTo_skipN ?_)
      simp [not_isBreak_of_hexValue? ha, not_isBreak_of_hexValue? hb]
      decide
    case h_2 => exact .error (sees_mark _)
  case h_2 => exact .error (sees_mark _)

theorem reads_scanTrail (construct : Construct) (start : Mark) (n code : Nat) (c : Cursor) :
    c.Reads Prod.snd (scanTrail construct start n code c) := by
  induction n generalizing code c with
  | zero => exact .ok (.refl c)
  | succ n ih =>
    refine Ends.bind (reads_scanOctet construct start c) ?_
    rintro ⟨octet, after⟩ hafter
    dsimp only
    split
    · exact (ih _ after).of_leadsTo hafter
    · exact .error (sees_mark c)

theorem reads_scanEncoded (construct : Construct) (start : Mark) (c : Cursor) :
    c.Reads Prod.snd (scanEncoded construct start c) := by
  refine Ends.bind (reads_scanOctet construct start c) ?_
  rintro ⟨octet, after⟩ hafter
  dsimp only
  split
  case h_1 => exact .error (sees_mark c)
  case h_2 width _ =>
    refine Reads.of_leadsTo hafter ((reads_scanTrail construct start (width - 1) _ after).bind ?_)
    rintro ⟨code, after⟩
    dsimp only
    split <;> exact .ok (.refl after)

theorem reads_tagChars (free : Bool) (construct : Construct) (start : Mark) (fuel : Nat) (text : List (Option Char))
    (c : Cursor) : c.Reads Prod.snd (tagChars free construct start fuel text c) := by
  induction fuel generalizing text c with
  | zero => exact .ok (.refl c)
  | succ fuel ih =>
    rw [tagChars]
    split
    case h_1 => exact .ok (.refl c)
    case h_2 x rest heq =>
      split_ifs with hpercent htag
      · have hread := reads_scanEncoded construct start c
        cases hresult : scanEncoded construct start c with
        | error e => exact .error (hresult ▸ hread).of_error
        | ok result => exact (ih _ _).of_leadsTo (hresult ▸ hread).of_ok
      · have hx : isBreak x = false := not_isBreak_of (p := isTagChar free) (by cases free <;> decide) htag
        exact (ih _ _).of_leadsTo (leadsTo_skip_of hx (by rw [heq]; rfl))
      · exact .ok (.refl c)

theorem reads_scanTagText (free : Bool) (construct : Construct) (start : Mark) (head : List Char) (c : Cursor) :
    c.Reads Prod.snd (scanTagText free construct start head c) := by
  refine (reads_tagChars free construct start _ [] c).bind ?_
  rintro ⟨text, after⟩
  dsimp only
  split
  · exact .error (sees_mark after)
  · exact .ok (.refl after)

theorem reads_scanHandle (construct : Construct) (start : Mark) (c : Cursor) :
    c.Reads Prod.snd (scanHandle construct start c) := by
  rw [scanHandle]
  split
  case isTrue => exact .error (sees_mark c)
  case isFalse hmark =>
    have hmark : c.rest.head? = some '!' := by simpa using hmark
    have hname : c.LeadsTo (c.skip.takeWhile isWordChar).2 :=
      (leadsTo_skip_of (by decide) hmark).trans (leadsTo_takeWord c.skip)
    dsimp only
    split
    case isTrue hend => exact .ok (hname.trans (leadsTo_skip_of (x := '!') (by decide) hend))
    case isFalse => exact .ok hname

theorem reads_scanTagBody {c : Cursor} (h : c.rest.head? = some '!') :
    c.Reads (fun tag => tag.2.2) (scanTagBody c) := by
  rw [scanTagBody]
  split
  case isTrue hopen =>
    have hskip : c.LeadsTo (c.skipN 2) := by
      refine leadsTo_skipN fun x hx => ?_
      obtain ⟨rest, hrest⟩ := List.head?_eq_some_iff.mp h
      obtain ⟨rest', rfl⟩ : ∃ rest', rest = '<' :: rest' := by
        cases rest with
        | nil => simp [hrest] at hopen
        | cons y rest' => exact ⟨rest', by simpa [hrest] using hopen⟩
      rw [hrest] at hx
      exact not_isBreak_of (p := fun x => x = '!' || x = '<') (by decide) (by simpa using hx)
    refine Reads.of_leadsTo hskip ((reads_scanTagText true .tagText c.mark [] _).bind ?_)
    rintro ⟨suffix, after⟩
    dsimp only
    split
    case isTrue hclose => exact .ok (leadsTo_skip_of (x := '>') (by decide) hclose)
    case isFalse => exact .error (sees_mark after)
  case isFalse =>
    refine (reads_scanHandle .tag c.mark c).bind ?_
    rintro ⟨handle, after⟩
    dsimp only
    split
    · refine (reads_scanTagText false .tagText c.mark [] after).bind ?_
      rintro ⟨suffix, after⟩
      exact .ok (.refl after)
    · refine (reads_scanTagText false .tagText c.mark handle after).bind ?_
      rintro ⟨suffix, after⟩
      dsimp only
      split <;> exact .ok (.refl after)

theorem reads_scanTag (inFlow : Bool) {c : Cursor} (h : c.rest.head? = some '!') :
    c.Reads (fun tag => tag.2.2) (scanTag inFlow c) := by
  refine (reads_scanTagBody h).bind ?_
  rintro ⟨handle, suffix, after⟩
  dsimp only
  split
  · exact .ok (.refl after)
  · exact .error (sees_mark after)

/-! ## §5 Directives -/

theorem reads_scanVersionNumber (start : Mark) (c : Cursor) : c.Reads Prod.snd (scanVersionNumber start c) := by
  have hdigit : ∀ x, ('0' ≤ x && x ≤ '9') = true → isBreak x = false :=
    fun _ => not_isBreak_of (p := fun x => '0' ≤ x && x ≤ '9') (by decide)
  have hdigits := leadsTo_takeWhile hdigit c
  rw [scanVersionNumber]
  dsimp only
  split_ifs with hlong
  · have hlong : 9 < (c.rest.takeWhile fun x => '0' ≤ x && x ≤ '9').length := hlong
    refine .error (leadsTo_skipN fun x hx => ?_).sees
    rw [← List.takeWhile_append_dropWhile (p := fun x => '0' ≤ x && x ≤ '9') (l := c.rest),
      List.take_append_of_le_length (Nat.le_of_lt hlong)] at hx
    exact hdigit x (List.mem_takeWhile_imp (p := fun x => '0' ≤ x && x ≤ '9') (List.mem_of_mem_take hx))
  · exact .error hdigits.sees
  · exact .ok hdigits

theorem reads_scanVersion (start : Mark) (c : Cursor) : c.Reads Prod.snd (scanVersion start c) := by
  refine Reads.of_leadsTo (leadsTo_skipBlanks c) ((reads_scanVersionNumber start _).bind ?_)
  rintro ⟨major, after⟩
  dsimp only
  split
  case isTrue => exact .error (sees_mark after)
  case isFalse hdot =>
    have hdot : after.rest.head? = some '.' := by simpa using hdot
    refine Reads.of_leadsTo (leadsTo_skip_of (by decide) hdot) ((reads_scanVersionNumber start _).bind ?_)
    rintro ⟨minor, after⟩
    exact .ok (.refl after)

theorem reads_scanTagDirective (start : Mark) (c : Cursor) : c.Reads Prod.snd (scanTagDirective start c) := by
  refine Reads.of_leadsTo (leadsTo_skipBlanks c) ((reads_scanHandle .tagDirectiveHandle start _).bind ?_)
  rintro ⟨handle, after⟩
  dsimp only
  split
  · exact .error (sees_mark after)
  split
  · exact .error (sees_mark after)
  refine Reads.of_leadsTo (leadsTo_skipBlanks after)
    ((reads_scanTagText true .tagDirectiveText start [] _).bind ?_)
  rintro ⟨stem, after⟩
  dsimp only
  split
  · exact .error (sees_mark after)
  · exact .ok (.refl after)

/-- Behind what a directive says, nothing but a comment is left of its line. -/
theorem gives_directiveEnd (start : Mark) (kind : TokenKind) {c said : Cursor} (h : c.LeadsTo said) :
    Gives c.Sees (fun directive => c.Passes directive.2.2 directive.2.1) (do
      let after := said.skipBlanks.skipComment
      if !atLineEnd after.rest then throw (.within .directive start .lineEndMissing after.mark)
      return (kind, said.mark, after.skipBreak)) := by
  have hcomment := (leadsTo_skipBlanks said).trans (leadsTo_skipComment _)
  dsimp only
  split
  · exact .error (h.trans hcomment).sees
  · exact .ok (h.passes_end.trans (hcomment.trans (leadsTo_skipBreak _)))

/-- What a directive says ends on the way to the next line. -/
theorem gives_scanDirective {c : Cursor} (h : c.rest.head? = some '%') :
    Gives c.Sees (fun directive => c.Passes directive.2.2 directive.2.1) (scanDirective c) := by
  have hname : c.LeadsTo (c.skip.takeWhile isWordChar).2 :=
    (leadsTo_skip_of (by decide) h).trans (leadsTo_takeWord c.skip)
  rw [scanDirective]
  generalize c.skip.takeWhile isWordChar = word at hname ⊢
  obtain ⟨name, after⟩ := word
  dsimp only at hname ⊢
  split
  · exact .error hname.sees
  split
  · exact .error hname.sees
  split
  · exact Ends.bind ((reads_scanVersion c.mark after).of_leadsTo hname) fun said => gives_directiveEnd c.mark said.1
  split
  · exact Ends.bind ((reads_scanTagDirective c.mark after).of_leadsTo hname) fun said =>
      gives_directiveEnd c.mark said.1
  · exact .error hname.sees

end RouteStubs.Yaml
