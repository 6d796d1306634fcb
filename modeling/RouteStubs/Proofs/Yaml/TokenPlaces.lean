import RouteStubs.Proofs.Yaml.TokenReading
import RouteStubs.Yaml.Token.Scan
/-!
Every token of a text, and every error of form that the tokens break off with, has a place of that text.

What a scan keeps is `Scan.Sound`: reading leads from the start of the text to its cursor, and each place that it has
noted, of a token or a candidate, was passed on the way. Each function that reads a token keeps this or fails at a
place of the text (`Scan.gives_next`), and so does a whole run.

Two things make the end of a text special. Where its last line has no line break, the last token stands at the start
of the line after it (`Cursor.Names`). And a text that breaks off at a character that may not occur is read up to a
place that need not be one of the whole text, the middle of a line break; but then nothing that lies near that end is
told (`Scan.run_seesMore`).
-/

namespace RouteStubs.Yaml
open Cursor

namespace Scan

/-! ## §1 The places that a scan has noted -/

/-- The places of the tokens and of the candidates are all as `P` says. -/
def Noted (P : Mark → Prop) (s : Scan) : Prop :=
  (∀ t ∈ s.tokens, P t.start ∧ P t.stop) ∧ ∀ k, some k ∈ s.candidate :: s.outer → P k.mark

/-- Reading from the start has come to the cursor, and every place noted is one on the way. -/
def Sound (start : Cursor) (s : Scan) : Prop :=
  start.LeadsTo s.cursor ∧ s.Noted (start.Passes s.cursor)

variable {P P' : Mark → Prop} {s : Scan} {start c : Cursor}

theorem Noted.mono (h : s.Noted P) (hP : ∀ m, P m → P' m) : s.Noted P' :=
  ⟨fun t ht => ⟨hP _ (h.1 t ht).1, hP _ (h.1 t ht).2⟩, fun k hk => hP _ (h.2 k hk)⟩

theorem Noted.push (h : s.Noted P) (kind : TokenKind) {first stop : Mark} (hfirst : P first) (hstop : P stop) :
    (s.push kind first stop).Noted P :=
  ⟨List.forall_mem_cons.mpr ⟨⟨hfirst, hstop⟩, h.1⟩, h.2⟩

theorem Noted.pushAt (h : s.Noted P) (position : Nat) (kind : TokenKind) {mark : Mark} (hmark : P mark) :
    (s.pushAt position kind mark).Noted P := by
  refine ⟨fun t ht => ?_, h.2⟩
  rcases List.mem_append.mp ht with htake | hdrop
  · exact h.1 t (List.mem_of_mem_take htake)
  · rcases List.mem_cons.mp hdrop with rfl | hdrop
    · exact ⟨hmark, hmark⟩
    · exact h.1 t (List.mem_of_mem_drop hdrop)

theorem Noted.openBlock (h : s.Noted P) (column : Nat) (position : Option Nat) (kind : TokenKind) {mark : Mark}
    (hmark : P mark) : (s.openBlock column position kind mark).Noted P := by
  rw [Scan.openBlock]
  split
  · exact h
  · cases position with
    | none => exact Noted.push h kind hmark hmark
    | some position => exact Noted.pushAt h position kind hmark

theorem openBlock_cursor (s : Scan) (column : Nat) (position : Option Nat) (kind : TokenKind) (mark : Mark) :
    (s.openBlock column position kind mark).cursor = s.cursor := by
  rw [openBlock]
  split
  · rfl
  · cases position <;> rfl

theorem closeDeeper_noted (column : Int) {mark : Mark} (hmark : P mark) (indents : List Int) (indent : Int)
    {tokens : List Token} (h : ∀ t ∈ tokens, P t.start ∧ P t.stop) :
    ∀ t ∈ (closeDeeper column mark indents indent tokens).1, P t.start ∧ P t.stop := by
  fun_induction closeDeeper column mark indents indent tokens with
  | case1 => exact h
  | case2 around indents indent tokens _ ih => exact ih (List.forall_mem_cons.mpr ⟨⟨hmark, hmark⟩, h⟩)
  | case3 => exact h

theorem Noted.closeBlocks (h : s.Noted P) (column : Int) (hmark : P s.cursor.mark) :
    (s.closeBlocks column).Noted P := by
  rw [Scan.closeBlocks]
  split
  · exact h
  · exact ⟨closeDeeper_noted column hmark s.indents s.indent h.1, h.2⟩

theorem closeBlocks_cursor (s : Scan) (column : Int) : (s.closeBlocks column).cursor = s.cursor := by
  rw [closeBlocks]
  split <;> rfl

/-- An open candidate is dropped, or missed at the cursor. -/
theorem gives_dropCandidate (s : Scan) :
    Gives (· = s.cursor.mark) (· = { s with candidate := none }) s.dropCandidate := by
  rw [dropCandidate]
  split
  · exact .error rfl
  · exact .ok rfl

theorem Noted.dropCandidate (h : s.Noted P) (hmark : P s.cursor.mark) :
    Gives P (fun s' => s'.cursor = s.cursor ∧ s'.Noted P) s.dropCandidate := by
  refine (gives_dropCandidate s).mono (fun m hm => hm ▸ hmark) ?_
  rintro s' rfl
  refine ⟨rfl, h.1, fun k hk => h.2 k ?_⟩
  simpa using Or.inr hk

theorem Noted.addCandidate (h : s.Noted P) (hmark : P s.cursor.mark) :
    Gives P (fun s' => s'.cursor = s.cursor ∧ s'.Noted P) s.addCandidate := by
  rw [Scan.addCandidate]
  split
  · refine (h.dropCandidate hmark).bind ?_
    rintro s' ⟨hcursor, htokens, hcandidates⟩
    refine .ok ⟨hcursor, htokens, fun k hk => ?_⟩
    rcases List.mem_cons.mp hk with heq | hk
    · obtain rfl := Option.some.inj heq
      exact hcursor ▸ hmark
    · exact hcandidates k (List.mem_cons_of_mem _ hk)
  · exact .ok ⟨rfl, h⟩

/-- The candidates that are left are some of those before. -/
theorem gives_dropStaleFrom (mark : Mark) (candidates : List (Option Candidate)) :
    Gives (· = mark) (fun left => ∀ k, some k ∈ left → some k ∈ candidates) (dropStaleFrom mark candidates) := by
  induction candidates with
  | nil => exact .ok fun k hk => hk
  | cons candidate rest ih =>
    have hdrop : Gives (· = mark) (fun left => ∀ k, some k ∈ left → some k ∈ candidate :: rest)
        ((dropStaleFrom mark rest).map (none :: ·)) :=
      ih.map fun left hleft k hk => List.mem_cons_of_mem _ (hleft k (by simpa using hk))
    cases candidate with
    | none => exact hdrop
    | some c =>
      rw [dropStaleFrom]
      split_ifs
      · exact .error rfl
      · exact hdrop
      · refine ih.map fun left hleft k hk => ?_
        rcases List.mem_cons.mp hk with heq | hk
        · exact heq ▸ List.mem_cons_self
        · exact List.mem_cons_of_mem _ (hleft k hk)

theorem Noted.dropStale (h : s.Noted P) (hmark : P s.cursor.mark) :
    Gives P (fun s' => s'.cursor = s.cursor ∧ s'.Noted P) s.dropStale := by
  refine ((gives_dropStaleFrom s.cursor.mark _).mono (fun m hm => hm ▸ hmark) fun _ h => h).bind ?_
  intro left hleft
  split
  case h_1 => exact .ok ⟨rfl, h⟩
  case h_2 candidate outer hreverse =>
    refine .ok ⟨rfl, h.1, fun k hk => h.2 k ?_⟩
    have hmem := hleft k (List.mem_reverse.mp (hreverse ▸ hk))
    exact List.mem_reverse.mp hmem

/-! ## §2 Single tokens -/

theorem Sound.mark (h : s.Sound start) : start.Passes s.cursor s.cursor.mark := h.1.passes_end

theorem Sound.move (h : s.Sound start) (hc : s.cursor.LeadsTo c) : Sound start { s with cursor := c } :=
  ⟨h.1.trans hc, h.2.mono fun _ hm => hm.trans hc⟩

/-- A token that starts at the cursor and ends on the way to where reading goes on. -/
theorem Sound.read (h : s.Sound start) (kind : TokenKind) {stop : Mark} (hstop : s.cursor.Passes c stop) :
    Sound start { s.push kind s.cursor.mark stop with cursor := c } :=
  ⟨h.1.trans hstop.leadsTo,
    (h.2.mono fun _ hm => hm.trans hstop.leadsTo).push kind (h.mark.trans hstop.leadsTo) (hstop.of_leadsTo h.1)⟩

theorem Sound.pushIndicator (h : s.Sound start) {n : Nat} (hn : ∀ x ∈ s.cursor.rest.take n, isBreak x = false)
    (kind : TokenKind) : (s.pushIndicator n kind).Sound start :=
  h.read kind (leadsTo_skipN hn).passes_end

theorem Sound.closeBlocks (h : s.Sound start) (column : Int) : (s.closeBlocks column).Sound start := by
  have hnoted := h.2.closeBlocks column h.mark
  rw [Sound, closeBlocks_cursor]
  exact ⟨h.1, hnoted⟩

theorem Sound.openBlock (h : s.Sound start) (column : Nat) (position : Option Nat) (kind : TokenKind) {mark : Mark}
    (hmark : start.Passes s.cursor mark) : (s.openBlock column position kind mark).Sound start := by
  have hnoted := h.2.openBlock column position kind hmark
  rw [Sound, openBlock_cursor]
  exact ⟨h.1, hnoted⟩

/-- What changes the tokens and candidates alone, with its error at a place passed. -/
theorem Sound.of_noted {x : Except SyntaxError Scan} (h : s.Sound start)
    (hx : Gives (start.Passes s.cursor) (fun s' => s'.cursor = s.cursor ∧ s'.Noted (start.Passes s.cursor)) x) :
    Gives start.Sees (fun s' => s'.cursor = s.cursor ∧ s'.Sound start) x := by
  refine hx.mono (fun _ hm => hm.sees) ?_
  rintro s' ⟨hcursor, hnoted⟩
  rw [Sound, hcursor]
  exact ⟨rfl, h.1, hnoted⟩

theorem Sound.dropCandidate (h : s.Sound start) :
    Gives start.Sees (fun s' => s'.cursor = s.cursor ∧ s'.Sound start) s.dropCandidate :=
  h.of_noted (h.2.dropCandidate h.mark)

theorem Sound.addCandidate (h : s.Sound start) :
    Gives start.Sees (fun s' => s'.cursor = s.cursor ∧ s'.Sound start) s.addCandidate :=
  h.of_noted (h.2.addCandidate h.mark)

theorem Sound.dropStale (h : s.Sound start) :
    Gives start.Sees (fun s' => s'.cursor = s.cursor ∧ s'.Sound start) s.dropStale :=
  h.of_noted (h.2.dropStale h.mark)

theorem Sound.sees (h : s.Sound start) {m : Mark} (hm : s.cursor.Sees m) : start.Sees m := hm.of_leadsTo h.1

theorem gives_scanDirectiveToken (h : s.Sound start) (hhead : s.cursor.rest.head? = some '%') :
    Gives start.Sees (Sound start) s.scanDirectiveToken := by
  refine (h.closeBlocks (-1)).dropCandidate.bind ?_
  rintro s' ⟨hcursor, hs'⟩
  have hhead' : s'.cursor.rest.head? = some '%' := by rw [hcursor, closeBlocks_cursor]; exact hhead
  refine ((gives_scanDirective hhead').mono (fun _ => hs'.sees) fun _ h => h).bind ?_
  rintro ⟨kind, stop, after⟩ hstop
  exact .ok (hs'.read kind hstop)

theorem not_isBreak_of_atDocumentMarker (h : c.atDocumentMarker = true) :
    ∀ x ∈ c.rest.take 3, isBreak x = false := by
  rw [atDocumentMarker] at h
  have hrest := (Bool.and_eq_true_iff.mp h).2
  intro x hx
  split at hrest
  case h_1 heq =>
    obtain rfl : x = '-' := by simpa [heq] using hx
    decide
  case h_2 heq =>
    obtain rfl : x = '.' := by simpa [heq] using hx
    decide
  case h_3 => cases hrest

theorem gives_scanDocumentMarker (h : s.Sound start) (hmarker : s.cursor.atDocumentMarker = true) (kind : TokenKind) :
    Gives start.Sees (Sound start) (s.scanDocumentMarker kind) := by
  refine (h.closeBlocks (-1)).dropCandidate.bind ?_
  rintro s' ⟨hcursor, hs'⟩
  have hmarker' : s'.cursor.atDocumentMarker = true := by rw [hcursor, closeBlocks_cursor]; exact hmarker
  exact .ok (hs'.pushIndicator (not_isBreak_of_atDocumentMarker hmarker') kind)

theorem gives_scanFlowStart (h : s.Sound start) (hhead : ∀ x ∈ s.cursor.rest.take 1, isBreak x = false)
    (kind : TokenKind) : Gives start.Sees (Sound start) (s.scanFlowStart kind) := by
  refine h.addCandidate.bind ?_
  rintro s' ⟨hcursor, hs'⟩
  obtain ⟨hlead, htokens, hcandidates⟩ := hs'.pushIndicator (hcursor ▸ hhead) kind
  exact .ok ⟨hlead, htokens, fun k hk => hcandidates k ((List.mem_cons.mp hk).resolve_left (by simp))⟩

theorem gives_scanFlowEnd (h : s.Sound start) (hhead : ∀ x ∈ s.cursor.rest.take 1, isBreak x = false)
    (kind : TokenKind) : Gives start.Sees (Sound start) (s.scanFlowEnd kind) := by
  refine h.dropCandidate.bind ?_
  rintro s' ⟨hcursor, hs'⟩
  have hread := hs'.pushIndicator (hcursor ▸ hhead) kind
  dsimp only
  split
  case h_1 => exact .ok hread
  case h_2 candidate outer houter =>
    refine .ok ⟨hread.1, hread.2.1, fun k hk => hread.2.2 k (List.mem_cons_of_mem _ ?_)⟩
    exact houter ▸ hk

theorem gives_scanFlowEntry (h : s.Sound start) (hhead : ∀ x ∈ s.cursor.rest.take 1, isBreak x = false) :
    Gives start.Sees (Sound start) s.scanFlowEntry := by
  refine h.dropCandidate.bind ?_
  rintro s' ⟨hcursor, hs'⟩
  exact .ok (hs'.pushIndicator (hcursor ▸ hhead) .flowEntry)

theorem gives_scanBlockEntry (h : s.Sound start) (hhead : ∀ x ∈ s.cursor.rest.take 1, isBreak x = false) :
    Gives start.Sees (Sound start) s.scanBlockEntry := by
  rw [scanBlockEntry]
  dsimp only
  split
  · exact .error h.mark.sees
  · refine (h.openBlock _ none .blockSequenceStart h.mark).dropCandidate.bind ?_
    rintro s' ⟨hcursor, hs'⟩
    rw [openBlock_cursor] at hcursor
    exact .ok (hs'.pushIndicator (hcursor ▸ hhead) .blockEntry)

theorem gives_scanKey (h : s.Sound start) (hhead : ∀ x ∈ s.cursor.rest.take 1, isBreak x = false) :
    Gives start.Sees (Sound start) s.scanKey := by
  rw [scanKey]
  dsimp only
  split
  · exact .error h.mark.sees
  · refine (h.openBlock _ none .blockMappingStart h.mark).dropCandidate.bind ?_
    rintro s' ⟨hcursor, hs'⟩
    rw [openBlock_cursor] at hcursor
    exact .ok (hs'.pushIndicator (hcursor ▸ hhead) .key)

theorem gives_scanValue (h : s.Sound start) (hhead : ∀ x ∈ s.cursor.rest.take 1, isBreak x = false) :
    Gives start.Sees (Sound start) s.scanValue := by
  rw [scanValue]
  dsimp only
  split
  case h_1 key hkey =>
    have hmark : start.Passes s.cursor key.mark := h.2.2 key (by rw [hkey]; exact List.mem_cons_self)
    have hpushed : (s.pushAt key.position .key key.mark).Sound start := ⟨h.1, h.2.pushAt key.position .key hmark⟩
    have hopened := hpushed.openBlock key.mark.column (some key.position) .blockMappingStart hmark
    have hread := hopened.pushIndicator (n := 1) (by rw [openBlock_cursor]; exact hhead) .value
    refine .ok ⟨hread.1, hread.2.1, fun k hk => hread.2.2 k ?_⟩
    simpa using Or.inr hk
  case h_2 =>
    split
    · exact .error h.mark.sees
    · have hopened := h.openBlock s.cursor.mark.column none .blockMappingStart h.mark
      exact .ok (hopened.pushIndicator (n := 1) (by rw [openBlock_cursor]; exact hhead) .value)

/-- What is read at the cursor, and then made a token. -/
theorem Sound.reads {α : Type} {stop : α → Cursor} {x : Except SyntaxError α} {f : α → Except SyntaxError Scan}
    (h : s.Sound start) (hx : s.cursor.Reads stop x)
    (hf : ∀ a, s.cursor.LeadsTo (stop a) → Gives start.Sees (Sound start) (f a)) :
    Gives start.Sees (Sound start) (x >>= f) :=
  Ends.bind (Ends.mono hx (fun _ => h.sees) fun _ h => h) hf

theorem gives_scanAlias (h : s.Sound start) (hhead : ∀ x, s.cursor.rest.head? = some x → isBreak x = false) :
    Gives start.Sees (Sound start) s.scanAlias := by
  refine h.addCandidate.bind ?_
  rintro s' ⟨hcursor, hs'⟩
  refine hs'.reads (reads_scanAnchorName .alias (hcursor ▸ hhead)) ?_
  rintro ⟨name, after⟩ hafter
  exact .ok (hs'.read _ hafter.passes_end)

theorem gives_scanAnchor (h : s.Sound start) (hhead : ∀ x, s.cursor.rest.head? = some x → isBreak x = false) :
    Gives start.Sees (Sound start) s.scanAnchor := by
  refine h.addCandidate.bind ?_
  rintro s' ⟨hcursor, hs'⟩
  refine hs'.reads (reads_scanAnchorName .anchor (hcursor ▸ hhead)) ?_
  rintro ⟨name, after⟩ hafter
  exact .ok (hs'.read _ hafter.passes_end)

theorem gives_scanTagToken (h : s.Sound start) (hhead : s.cursor.rest.head? = some '!') :
    Gives start.Sees (Sound start) s.scanTagToken := by
  refine h.addCandidate.bind ?_
  rintro s' ⟨hcursor, hs'⟩
  refine hs'.reads (reads_scanTag s'.inFlow (hcursor ▸ hhead)) ?_
  rintro ⟨handle, suffix, after⟩ hafter
  exact .ok (hs'.read _ hafter.passes_end)

theorem gives_scanBlockScalar (h : s.Sound start) (hhead : ∀ x, s.cursor.rest.head? = some x → isBreak x = false)
    (style : ScalarStyle) : Gives start.Sees (Sound start) (s.scanBlockScalar style) := by
  refine h.dropCandidate.bind ?_
  rintro s' ⟨hcursor, hs'⟩
  refine hs'.reads (reads_scanBlock (style == .folded) s'.indent (hcursor ▸ hhead)) ?_
  rintro ⟨text, after⟩ hafter
  exact .ok (hs'.read _ hafter.passes_end)

theorem gives_scanQuotedScalar (h : s.Sound start) (style : ScalarStyle)
    (hhead : s.cursor.rest.head? = some (if style == .singleQuoted then '\'' else '"')) :
    Gives start.Sees (Sound start) (s.scanQuotedScalar style) := by
  have hquote : isBreak (if style == .singleQuoted then '\'' else '"') = false := by split <;> decide
  refine h.addCandidate.bind ?_
  rintro s' ⟨hcursor, hs'⟩
  refine hs'.reads (reads_scanQuoted hquote (hcursor ▸ hhead)) ?_
  rintro ⟨text, after⟩ hafter
  exact .ok (hs'.read _ hafter.passes_end)

theorem gives_scanPlainScalar (h : s.Sound start) : Gives start.Sees (Sound start) s.scanPlainScalar := by
  refine h.addCandidate.bind ?_
  rintro s' ⟨hcursor, hs'⟩
  refine Ends.bind ((gives_scanPlain s'.inFlow _ s'.cursor).mono (fun _ => hs'.sees) fun _ h => h) ?_
  intro plain hstop
  exact .ok (hs'.read _ hstop)

/-! ## §3 The next token -/

theorem Sound.skipToToken (h : s.Sound start) (fuel : Nat) : (skipToToken fuel s).Sound start := by
  induction fuel generalizing s with
  | zero => exact h
  | succ fuel ih =>
    rw [Scan.skipToToken]
    have hmark : s.cursor.LeadsTo (if s.cursor.mark.index = 0 && s.cursor.rest.head? = some '\ufeff' then s.cursor.skip
        else s.cursor) := by
      split
      case isTrue hfirst => exact leadsTo_skip_of (x := '\ufeff') (by decide) (by simp at hfirst; exact hfirst.2)
      case isFalse => exact .refl _
    generalize (if s.cursor.mark.index = 0 && s.cursor.rest.head? = some '\ufeff' then s.cursor.skip
        else s.cursor) = first at hmark ⊢
    have hgap : first.LeadsTo
        (first.dropWhile fun c => c = ' ' || (c = '\t' && (s.inFlow || !s.keyAllowed))).skipComment := by
      refine (leadsTo_dropWhile (fun x hx => ?_) first).trans (leadsTo_skipComment _)
      have hblank : isBlank x = true := by
        rw [isBlank, Bool.or_eq_true]
        exact (Bool.or_eq_true_iff.mp hx).imp_right fun htab => (Bool.and_eq_true_iff.mp htab).1
      exact not_isBreak_of_isBlank hblank
    generalize (first.dropWhile fun c => c = ' ' || (c = '\t' && (s.inFlow || !s.keyAllowed))).skipComment = next
      at hgap ⊢
    have hnext := h.move (hmark.trans hgap)
    split
    · have hbreak := hnext.move (leadsTo_skipBreak next)
      exact ih (s := { s with cursor := next.skipBreak, keyAllowed := s.keyAllowed || !s.inFlow }) hbreak
    · exact hnext

/-- The character at the cursor decides which token is read; a line break is none of those that start one. -/
theorem gives_scanToken (h : s.Sound start) (hrest : s.cursor.rest ≠ []) :
    Gives start.Sees (Sound start) s.scanToken := by
  rw [scanToken]
  split
  case h_1 heq => exact absurd heq hrest
  case h_2 x rest heq =>
    -- what the readers of tokens ask of the cursor, once the first character is known to be `y`
    have hhead {y : Char} (hx : x = y) : s.cursor.rest.head? = some y := by rw [heq, hx]; rfl
    have hfirst {y : Char} (hx : x = y) (hy : isBreak y = false) :
        ∀ z, s.cursor.rest.head? = some z → isBreak z = false := by simpa [heq, hx] using hy
    have hone {y : Char} (hx : x = y) (hy : isBreak y = false) :
        ∀ z ∈ s.cursor.rest.take 1, isBreak z = false := by simpa [heq, hx] using hy
    have hleft {y : Char} {b : Bool} (hc : (decide (x = y) && b) = true) : x = y :=
      of_decide_eq_true (Bool.and_eq_true_iff.mp hc).1
    have hright {y : Char} {b : Bool} (hc : (b && decide (x = y)) = true) : x = y :=
      of_decide_eq_true (Bool.and_eq_true_iff.mp hc).2
    refine .ite (fun hc => gives_scanDirectiveToken h (hhead (hright hc))) fun _ => ?_
    refine .ite (fun hc => gives_scanDocumentMarker h hc _) fun _ => ?_
    refine .ite (fun hc => gives_scanFlowStart h (hone hc (by decide)) _) fun _ => ?_
    refine .ite (fun hc => gives_scanFlowStart h (hone hc (by decide)) _) fun _ => ?_
    refine .ite (fun hc => gives_scanFlowEnd h (hone hc (by decide)) _) fun _ => ?_
    refine .ite (fun hc => gives_scanFlowEnd h (hone hc (by decide)) _) fun _ => ?_
    refine .ite (fun hc => gives_scanFlowEntry h (hone hc (by decide))) fun _ => ?_
    refine .ite (fun hc => gives_scanBlockEntry h (hone (hleft hc) (by decide))) fun _ => ?_
    refine .ite (fun hc => gives_scanKey h (hone (hleft hc) (by decide))) fun _ => ?_
    refine .ite (fun hc => gives_scanValue h (hone (hleft hc) (by decide))) fun _ => ?_
    refine .ite (fun hc => gives_scanAlias h (hfirst hc (by decide))) fun _ => ?_
    refine .ite (fun hc => gives_scanAnchor h (hfirst hc (by decide))) fun _ => ?_
    refine .ite (fun hc => gives_scanTagToken h (hhead hc)) fun _ => ?_
    refine .ite (fun hc => gives_scanBlockScalar h (hfirst (hleft hc) (by decide)) _) fun _ => ?_
    refine .ite (fun hc => gives_scanBlockScalar h (hfirst (hleft hc) (by decide)) _) fun _ => ?_
    refine .ite (fun hc => gives_scanQuotedScalar h .singleQuoted (hhead hc)) fun _ => ?_
    refine .ite (fun hc => gives_scanQuotedScalar h .doubleQuoted (hhead hc)) fun _ => ?_
    exact .ite (fun _ => gives_scanPlainScalar h) fun _ => .error h.mark.sees


/-- What a reader of tokens is at after the next one: at a cursor that reading leads to, or behind the last token. -/
def Reached (start : Cursor) (s : Scan) : Prop :=
  s.Sound start ∨ s.ended = true ∧ s.cursor.rest = [] ∧ s.Noted start.Names

theorem gives_scanEnd (h : s.Sound start) (hrest : s.cursor.rest = []) :
    Gives start.Names (Reached start) s.scanEnd := by
  rw [scanEnd]
  dsimp only
  generalize hmark : (if s.cursor.mark.column = 0 then s.cursor.mark
    else ⟨s.cursor.mark.index, s.cursor.mark.line + 1, 0⟩) = mark
  have hnames : start.Names mark := by
    have hend : start.LeadsTo ⟨[], s.cursor.mark⟩ := hrest ▸ h.1
    by_cases hcolumn : s.cursor.mark.column = 0
    · rw [if_pos hcolumn] at hmark
      exact hmark ▸ .inl hend.sees
    · rw [if_neg hcolumn] at hmark
      exact .inr ⟨s.cursor.mark, hend, hcolumn, hmark.symm⟩
  have hnoted : Noted start.Names { s with cursor := { s.cursor with mark } } :=
    h.2.mono fun _ hm => .inl hm.sees
  refine ((hnoted.closeBlocks (-1) hnames).dropCandidate ?_).bind ?_
  · rw [closeBlocks_cursor]
    exact hnames
  · rintro s' ⟨hcursor, hs'⟩
    refine .ok (.inr ⟨rfl, ?_, hs'.push .streamEnd hnames hnames⟩)
    show s'.cursor.rest = []
    rw [hcursor, closeBlocks_cursor]
    exact hrest

theorem gives_next (h : s.Sound start) : Gives start.Names (Reached start) s.next := by
  refine ((h.skipToToken _).dropStale.mono (fun _ hm => .inl hm) fun _ h => h.2).bind ?_
  intro s' hs'
  have hclosed := hs'.closeBlocks s'.cursor.mark.column
  by_cases hrest : (s'.closeBlocks s'.cursor.mark.column).cursor.rest = []
  · rw [scanToken, hrest]
    exact gives_scanEnd hclosed hrest
  · exact (gives_scanToken hclosed hrest).mono (fun _ hm => .inl hm) fun _ => .inl

end Scan

/-! ## §4 Whole texts -/

/-- The places of the tokens and of the error are all as `P` says. -/
def Tokens.Placed (P : Mark → Prop) (tokens : Tokens) : Prop :=
  (∀ t ∈ tokens.tokens, P t.start ∧ P t.stop) ∧ ∀ e, tokens.error = some e → P e.mark

namespace Scan

variable {P : Mark → Prop} {s : Scan} {start : Cursor}

theorem refuse_placed (h : ∀ t ∈ s.tokens, P t.start ∧ P t.stop) {e : SyntaxError} (he : P e.mark) :
    (s.refuse e).Placed P := by
  refine ⟨fun t ht => h t (List.mem_reverse.mp (List.mem_of_mem_take ht)), ?_⟩
  rintro e' heq
  exact Option.some.inj heq ▸ he

theorem reversed_placed (h : ∀ t ∈ s.tokens, P t.start ∧ P t.stop) : Tokens.Placed P ⟨s.tokens.reverse, none⟩ :=
  ⟨fun t ht => h t (List.mem_reverse.mp ht), fun _ heq => by cases heq⟩

theorem Sound.tokens_named (h : s.Sound start) : ∀ t ∈ s.tokens, start.Names t.start ∧ start.Names t.stop :=
  (h.2.mono fun _ hm => .inl hm.sees).1

/-- A text read to its end. -/
theorem run_named (fuel : Nat) (h : s.Sound start) : (run none fuel s).Placed start.Names := by
  induction fuel generalizing s with
  | zero => exact reversed_placed h.tokens_named
  | succ fuel ih =>
    rw [run]
    have hnext := gives_next h
    generalize s.next = next at hnext ⊢
    cases hnext with
    | error he => exact refuse_placed h.tokens_named he
    | @ok after hafter =>
      dsimp only
      split
      case isTrue =>
        refine reversed_placed ?_
        rcases hafter with hafter | ⟨-, -, hnoted⟩
        · exact hafter.tokens_named
        · exact hnoted.1
      case isFalse hended =>
        have hafter := hafter.resolve_right fun hend => hended hend.1
        have hstale := hafter.dropStale
        generalize after.dropStale = kept at hstale ⊢
        cases hstale with
        | error he => exact refuse_placed h.tokens_named (.inl he)
        | ok hkept => exact ih hkept.2

/-- A text that breaks off: nothing that is near to its end is told. -/
theorem run_seesMore {fault : SyntaxError} (hP : ∀ m, start.SeesMore m → P m) (hfault : P fault.mark) (fuel : Nat)
    (h : s.Sound start) (htokens : ∀ t ∈ s.tokens, P t.start ∧ P t.stop) :
    (run (some fault) fuel s).Placed P := by
  induction fuel generalizing s with
  | zero => exact reversed_placed htokens
  | succ fuel ih =>
    rw [run]
    have hnext := gives_next h
    generalize s.next = next at hnext ⊢
    cases hnext with
    | @error e he =>
      dsimp only
      split
      case isTrue hnear =>
        -- an error is told only if more than four bytes follow it, so its place is not the end of what was read
        refine refuse_placed htokens (hP _ (he.seesMore ?_))
        rw [h.1.byteLength]
        omega
      case isFalse => exact refuse_placed htokens hfault
    | @ok after hafter =>
      dsimp only
      split
      case isTrue => exact refuse_placed htokens hfault
      case isFalse hfar =>
        -- reading goes on only where text is left, so every place passed so far has text behind it
        have hrest : after.cursor.rest ≠ [] := fun hnil => hfar (by simp [hnil])
        have hafter := hafter.resolve_right fun hend => hrest hend.2.1
        have hstale := hafter.2.dropStale hafter.mark
        generalize after.dropStale = kept at hstale ⊢
        cases hstale with
        | error he => exact refuse_placed htokens (hP _ (he.seesMore hrest))
        | @ok kept hkept =>
          obtain ⟨hcursor, hnoted⟩ := hkept
          have htold := (hnoted.mono fun m hm => hP m (hm.seesMore hrest)).1
          rw [← hcursor] at hnoted
          exact ih ⟨hcursor ▸ hafter.1, hnoted⟩ htold

end Scan

theorem splitAtForbidden_prefix (complete block : List Char) (used offset : Nat) (text : List Char) :
    (splitAtForbidden complete block used offset text).1 <+: (block ++ complete).reverse ++ text := by
  fun_induction splitAtForbidden complete block used offset text with
  | case1 => simp
  | case2 complete block used offset c rest size hblock hc ih => simpa using ih
  | case3 => simp
  | case4 complete block used offset c rest size hblock hc ih => simpa using ih
  | case5 => simp

theorem splitAtForbidden_none (complete block : List Char) (used offset : Nat) (text : List Char)
    (h : (splitAtForbidden complete block used offset text).2 = none) :
    (splitAtForbidden complete block used offset text).1 = (block ++ complete).reverse ++ text := by
  fun_induction splitAtForbidden complete block used offset text with
  | case1 => simp
  | case2 complete block used offset c rest size hblock hc ih => simpa using ih h
  | case3 => cases h
  | case4 complete block used offset c rest size hblock hc ih => simpa using ih h
  | case5 => cases h

/-- **Every token of a text, and what the tokens break off with, has a place of the text.** Only a text's start
stands for the place of a character that may not occur. -/
theorem Tokens.ofText_placed (text : List Char) : (Tokens.ofText text).Placed (Cursor.ofText text).Names := by
  have hwhole := splitAtForbidden_none [] [] 0 0 text
  have hprefix := splitAtForbidden_prefix [] [] 0 0 text
  rw [Tokens.ofText]
  generalize splitAtForbidden [] [] 0 0 text = split at hwhole hprefix ⊢
  obtain ⟨read, forbidden⟩ := split
  have hstart : (Scan.ofText read).Sound (.ofText read) :=
    ⟨.refl _, List.forall_mem_nil _, fun k hk => by simp [Scan.ofText] at hk⟩
  cases forbidden with
  | none =>
    obtain rfl : read = text := hwhole rfl
    exact Scan.run_named _ hstart
  | some offset =>
    obtain ⟨more, rfl⟩ : ∃ more, read ++ more = text := hprefix
    refine Scan.run_seesMore ?_ (.inl (sees_mark _)) _ hstart (List.forall_mem_nil _)
    rintro m ⟨c', hc', hrest, rfl⟩
    exact .inl (hc'.append hrest more).sees

end RouteStubs.Yaml
