import RouteStubs.Proofs.Yaml.Scalars
/-!
The tokens of a document in block style.

The scanner goes through a document line by line. Between two lines it is in a state that `AtLine`
describes, behind the colon of a key in one that `OnLine` describes, and `Reaches` leads from one to the
next. Collections are closed only where the next line shows that they end, so what has been read of a value
is known up to the `blockEnd` tokens that are still to come (`ClosesTo`).
-/

namespace RouteStubs.Yaml

mutual

/-- The tokens of a value behind the mark of its key. -/
def Block.kinds : Block → List TokenKind
  | .nothing => []
  | .words first others => [.scalar .plain (joinWords first others)]
  | .quoted text => [.scalar .doubleQuoted text]
  | .mapping entries => .blockMappingStart :: (Block.entryKinds entries ++ [.blockEnd])
termination_by structural b => b

/-- The tokens of the entries of a mapping. -/
def Block.entryKinds : List (List Char × Block) → List TokenKind
  | [] => []
  | (key, b) :: rest =>
    [.key, .scalar .plain key, .value] ++ (Block.kinds b ++ Block.entryKinds rest)
termination_by structural entries => entries

end

namespace Scan

/-! ## §1 Runs -/

/-- From one state to a later one by reading tokens. Each takes a character at least. -/
inductive Reaches : Scan → Scan → Prop
  | refl (s : Scan) : Reaches s s
  | step {s after dropped last : Scan} (next_eq : s.next = .ok after) (ended : after.ended = false)
      (dropStale_eq : after.dropStale = .ok dropped)
      (shorter : dropped.cursor.rest.length < s.cursor.rest.length)
      (rest : Reaches { dropped with released := dropped.settled } last) : Reaches s last

theorem Reaches.append {s t u : Scan} (h : Reaches s t) (h' : Reaches t u) : Reaches s u := by
  induction h with
  | refl => exact h'
  | step hnext hended hdrop hshorter _ ih => exact .step hnext hended hdrop hshorter (ih h')

/-- A run goes on from each state that it reaches, with enough steps left. -/
theorem Reaches.run_eq {s t : Scan} (h : Reaches s t) (fuel : Nat) (hfuel : s.cursor.rest.length < fuel) :
    ∃ fuel', t.cursor.rest.length < fuel' ∧ run none fuel s = run none fuel' t := by
  induction h generalizing fuel with
  | refl => exact ⟨fuel, hfuel, rfl⟩
  | step hnext hended hdrop hshorter _ ih =>
    obtain ⟨fuel, rfl⟩ := Nat.exists_eq_succ_of_ne_zero (Nat.ne_zero_of_lt hfuel)
    obtain ⟨fuel', hfuel', heq⟩ := ih fuel (by simp only; omega)
    refine ⟨fuel', hfuel', ?_⟩
    rw [run, hnext]
    simp only [hended, hdrop, heq, Bool.false_eq_true, if_false]

/-! ## §2 Between tokens -/

/-- A run of characters of a class is passed over up to the first other. -/
theorem dropWhile_append {p : Char → Bool} {s t : List Char} {mark : Mark} (hs : ∀ c ∈ s, p c = true)
    (ht : ∀ c ∈ t.head?, p c = false) : (⟨s ++ t, mark⟩ : Cursor).dropWhile p = ⟨t, mark.along s⟩ := by
  have hnone : t.takeWhile p = [] ∧ t.dropWhile p = t := by
    cases t with
    | nil => exact ⟨rfl, rfl⟩
    | cons c t =>
      have hc : ¬ p c = true := by simp [ht c rfl]
      exact ⟨List.takeWhile_cons_of_neg hc, List.dropWhile_cons_of_neg hc⟩
  rw [Cursor.dropWhile, Cursor.takeWhile, List.takeWhile_append_of_pos hs, List.dropWhile_append_of_pos hs,
    hnone.1, hnone.2, List.append_nil]

theorem skipComment_of_beginsLine {text : List Char} {mark : Mark} (h : BeginsLine text) :
    (⟨text, mark⟩ : Cursor).skipComment = ⟨text, mark⟩ := by
  rw [Cursor.skipComment, if_neg]
  intro hhead
  exact (h '#' hhead).2.2 rfl

/-- Spaces in front of a token are passed over. -/
theorem skipToToken_spaces {s : Scan} {n : Nat} {text : List Char} (fuel : Nat)
    (hrest : s.cursor.rest = List.replicate n ' ' ++ text) (htext : BeginsLine text)
    (hindex : s.cursor.mark.index ≠ 0) :
    skipToToken (fuel + 1) s =
      { s with cursor := ⟨text, s.cursor.mark.along (List.replicate n ' ')⟩ } := by
  obtain ⟨⟨rest, mark⟩, tokens, released, indent, indents, keyAllowed, candidate, outer, ended⟩ := s
  obtain rfl : rest = List.replicate n ' ' ++ text := hrest
  replace hindex : mark.index ≠ 0 := hindex
  have hspaces : ∀ c ∈ List.replicate n ' ',
      (decide (c = ' ') || (decide (c = '\t') && (!outer.isEmpty || !keyAllowed))) = true := by
    intro c hc
    simp [List.eq_of_mem_replicate hc]
  have hstop : ∀ c ∈ text.head?,
      (decide (c = ' ') || (decide (c = '\t') && (!outer.isEmpty || !keyAllowed))) = false := by
    intro c hc
    have hblank := (htext c hc).1
    rw [isBlank, Bool.or_eq_false_iff] at hblank
    rw [hblank.1, hblank.2]
    rfl
  have hbreak : text.head?.any isBreak = false := by
    cases text with
    | nil => rfl
    | cons c text => exact (htext c rfl).2.1
  rw [skipToToken]
  simp only [hindex, decide_false, Bool.false_and, Bool.false_eq_true, if_false, inFlow,
    dropWhile_append hspaces hstop, skipComment_of_beginsLine htext, hbreak]

/-- A comment or nothing: what may stand at the end of a line. -/
def IsComment (text : List Char) : Prop :=
  (∀ c ∈ text.head?, c = '#') ∧ ∀ c ∈ text, isBreak c = false

theorem isComment_nil : IsComment [] := ⟨nofun, nofun⟩

/-- A comment is passed over. -/
theorem skipComment_append {comment text : List Char} {mark : Mark} (h : IsComment comment)
    (htext : ∀ c ∈ text.head?, isBreak c = true) :
    (⟨comment ++ text, mark⟩ : Cursor).skipComment = ⟨text, mark.along comment⟩ := by
  have hstop : ∀ c ∈ text.head?, (!isBreak c) = false := fun c hc => by rw [htext c hc]; rfl
  cases comment with
  | nil =>
    have hhead : ¬ text.head? = some '#' := fun hhead => absurd (htext '#' hhead) (by decide)
    rw [List.nil_append, Cursor.skipComment, if_neg hhead, Mark.along_nil]
  | cons c comment =>
    obtain rfl : c = '#' := h.1 c rfl
    rw [Cursor.skipComment, List.cons_append, List.head?_cons, if_pos rfl, ← List.cons_append]
    exact dropWhile_append (fun d hd => by rw [h.2 d hd]; rfl) hstop

/-- The end of a line is passed over, and a key may start behind it. -/
theorem skipToToken_break {s : Scan} {comment text : List Char} (fuel : Nat)
    (hrest : s.cursor.rest = comment ++ '\n' :: text) (hcomment : IsComment comment) (houter : s.outer = []) :
    skipToToken (fuel + 1) s = skipToToken fuel { s with
      cursor := ⟨text, (s.cursor.mark.along comment).nextLine 1⟩, keyAllowed := true } := by
  obtain ⟨⟨rest, mark⟩, tokens, released, indent, indents, keyAllowed, candidate, outer, ended⟩ := s
  obtain rfl : rest = comment ++ '\n' :: text := hrest
  obtain rfl : outer = [] := houter
  have hhead : ∀ c ∈ (comment ++ '\n' :: text).head?, c = '#' ∨ c = '\n' := by
    cases comment with
    | nil => exact fun c hc => .inr (Option.some.inj hc).symm
    | cons d comment => exact fun c hc => .inl (hcomment.1 c hc)
  have hstop : ∀ c ∈ (comment ++ '\n' :: text).head?,
      (decide (c = ' ') || (decide (c = '\t') && (!([] : List (Option Candidate)).isEmpty || !keyAllowed))) =
        false := by
    intro c hc
    rcases hhead c hc with rfl | rfl <;> simp
  have hbom : (comment ++ '\n' :: text).head? ≠ some '\ufeff' := by
    intro hc
    rcases hhead _ hc with h | h <;> exact absurd h (by decide)
  have hskip : (⟨comment ++ '\n' :: text, mark⟩ : Cursor).skipComment =
      ⟨'\n' :: text, mark.along comment⟩ := skipComment_append hcomment (by rintro c ⟨⟩; decide)
  have hsize : '\n'.utf8Size = 1 := by decide
  rw [skipToToken]
  have hdrop : Cursor.dropWhile _ ⟨comment ++ '\n' :: text, mark⟩ = ⟨comment ++ '\n' :: text, mark⟩ :=
    dropWhile_append (s := []) (fun _ h => by cases h) hstop
  simp only [hbom, decide_false, Bool.and_false, Bool.false_eq_true, if_false, inFlow, hdrop, hskip]
  simp [isBreak, Cursor.skipBreak, Cursor.readBreak, hsize]

/-- The end of a line and the spaces in front of the next are passed over, and a key may start. -/
theorem skipToToken_lineStart {s : Scan} {comment : List Char} {column : Nat} {text : List Char} (fuel : Nat)
    (hrest : s.cursor.rest = comment ++ (lineStart column ++ text)) (hcomment : IsComment comment)
    (htext : BeginsLine text) (houter : s.outer = []) :
    skipToToken (fuel + 2) s =
      { s with
        cursor := ⟨text, ((s.cursor.mark.along comment).nextLine 1).along (List.replicate column ' ')⟩,
        keyAllowed := true } := by
  rw [skipToToken_break (fuel + 1) hrest hcomment houter]
  exact skipToToken_spaces fuel rfl htext (by simp [Mark.nextLine])

/-! ## §3 States -/

/-- The kinds of the tokens that have been read, the first one first. -/
def kindsOf (tokens : List Token) : List TokenKind := (tokens.map (·.kind)).reverse

theorem kindsOf_cons (token : Token) (tokens : List Token) :
    kindsOf (token :: tokens) = kindsOf tokens ++ [token.kind] := by
  simp [kindsOf]

/-- The scanner goes on with a text at the start of a line. -/
structure AtLine (s : Scan) (column : Nat) (text : List Char) : Prop where
  candidate : s.candidate = none
  outer : s.outer = []
  ended : s.ended = false
  length_le : text.length ≤ s.cursor.rest.length
  skip : ∃ mark : Mark, mark.index ≠ 0 ∧ mark.column = column ∧
    skipToToken (s.cursor.rest.length + 1) s = { s with cursor := ⟨text, mark⟩, keyAllowed := true }

/-- The scanner goes on with a text on a line, behind the colon of a key. The innermost collection is at
the column of that key. -/
structure OnLine (s : Scan) (text : List Char) (column : Nat) (indents : List Int)
    (kinds : List TokenKind) : Prop where
  candidate : s.candidate = none
  outer : s.outer = []
  ended : s.ended = false
  keyAllowed : s.keyAllowed = false
  rest : s.cursor.rest = text
  index : s.cursor.mark.index ≠ 0
  behind : column < s.cursor.mark.column
  indent : s.indent = column
  indents : s.indents = indents
  kinds : kindsOf s.tokens = kinds

/-- Closing what is deeper than a column leaves these collections open and gives these tokens. -/
def Closes (s : Scan) (column : Int) (indent : Int) (indents : List Int) (kinds : List TokenKind) : Prop :=
  ∀ mark, ∃ tokens, closeDeeper column mark s.indents s.indent s.tokens = (tokens, indent, indents) ∧
    kindsOf tokens = kinds

/-- Nothing is closed that is not deeper than the column. -/
theorem closeDeeper_of_le {column indent : Int} (h : indent ≤ column) (mark : Mark) (indents : List Int)
    (tokens : List Token) : closeDeeper column mark indents indent tokens = (tokens, indent, indents) := by
  cases indents with
  | nil => rfl
  | cons around indents => rw [closeDeeper, if_neg (by omega)]

/-- A candidate on its line stays. -/
theorem dropStale_of_fresh {s : Scan} (houter : s.outer = [])
    (hfresh : ∀ c, s.candidate = some c → Candidate.isStale s.cursor.mark c = false) :
    s.dropStale = .ok s := by
  obtain ⟨cursor, tokens, released, indent, indents, keyAllowed, candidate, outer, ended⟩ := s
  obtain rfl : outer = [] := houter
  cases candidate with
  | none => rfl
  | some c =>
    have hc : Candidate.isStale cursor.mark c = false := hfresh c rfl
    simp [dropStale, dropStaleFrom, hc, bind, Except.bind, Except.map, pure, Except.pure]

theorem dropStale_of_none {s : Scan} (hcandidate : s.candidate = none) (houter : s.outer = []) :
    s.dropStale = .ok s :=
  dropStale_of_fresh houter fun c hc => by rw [hcandidate] at hc; cases hc

/-- The scanner is at the first token of a line, with these collections open. -/
structure AtToken (s : Scan) (text : List Char) (column : Nat) (indent : Int) (indents : List Int)
    (kinds : List TokenKind) : Prop where
  candidate : s.candidate = none
  outer : s.outer = []
  ended : s.ended = false
  keyAllowed : s.keyAllowed = true
  rest : s.cursor.rest = text
  index : s.cursor.mark.index ≠ 0
  column : s.cursor.mark.column = column
  indent : s.indent = indent
  indents : s.indents = indents
  kinds : kindsOf s.tokens = kinds

/-- The token at the start of a line is read with the collections closed that end there. -/
theorem AtLine.next_eq {s : Scan} {column : Nat} {text : List Char} (h : AtLine s column text)
    {indent : Int} {indents : List Int} {kinds : List TokenKind}
    (hcloses : Closes s column indent indents kinds) :
    ∃ t, s.next = t.scanToken ∧ AtToken t text column indent indents kinds := by
  obtain ⟨mark, hindex, hcolumn, hskip⟩ := h.skip
  obtain ⟨tokens, hclose, hkinds⟩ := hcloses mark
  have hdrop : dropStale { s with cursor := ⟨text, mark⟩, keyAllowed := true } =
      .ok { s with cursor := ⟨text, mark⟩, keyAllowed := true } := dropStale_of_none h.candidate h.outer
  refine ⟨{ s with
    cursor := ⟨text, mark⟩, keyAllowed := true, tokens := tokens, indent := indent, indents := indents },
    ?_, h.candidate, h.outer, h.ended, rfl, rfl, hindex, hcolumn, rfl, rfl, hkinds⟩
  rw [next, hskip, hdrop]
  simp only [bind, Except.bind, closeBlocks, inFlow, h.outer, hcolumn, hclose]
  rfl

/-! ## §4 Keys -/

/-- A word that starts with an indicator goes on, so that it is none. -/
theorem not_atGap_of_isFirstWord {c : Char} {word : List Char} (h : isFirstWord (c :: word) = true)
    (hc : c = '-' ∨ c = '?' ∨ c = ':') (rest : List Char) : atGap (word ++ rest) = false := by
  obtain ⟨hword, hstarts, hdash⟩ := isFirstWord_iff.mp h
  cases word with
  | nil =>
    rcases hc with rfl | rfl | rfl
    · exact absurd rfl hdash
    · cases hstarts
    · cases hstarts
  | cons d word =>
    obtain ⟨hblank, hbreak⟩ := solid_of_isWord hword d (by simp)
    rw [List.cons_append, atGap, hblank, hbreak]
    rfl

/-- A word is read as a plain scalar. -/
theorem scanToken_word {s : Scan} {word rest : List Char} (houter : s.outer = [])
    (hrest : s.cursor.rest = word ++ rest) (hword : isFirstWord word = true)
    (hmark : s.cursor.atDocumentMarker = false) : s.scanToken = s.scanPlainScalar := by
  obtain ⟨hisWord, hstarts, -⟩ := isFirstWord_iff.mp hword
  obtain ⟨c, word, rfl⟩ := List.exists_cons_of_ne_nil (ne_nil_of_isWord hisWord)
  have hgap := fun hc => not_atGap_of_isFirstWord hword hc rest
  have hflow : s.inFlow = false := by rw [inFlow, houter]; rfl
  rw [scanToken]
  simp only [hrest, List.cons_append, hmark, hflow, Bool.false_or]
  generalize word ++ rest = more at hgap
  by_cases hc : c = '-' ∨ c = '?' ∨ c = ':'
  · have hmore : atGap more = false := hgap hc
    have hblank : more.head?.any isBlank = false := by
      cases more with
      | nil => rfl
      | cons d more =>
        rw [atGap, Bool.or_eq_false_iff] at hmore
        exact hmore.1
    rcases hc with rfl | rfl | rfl <;> simp [hmore, startsPlain, hblank]
  · simp only [not_or] at hc
    have hplain : startsPlain false (c :: more) = true := by
      simpa [startsPlain, hc] using hstarts
    simp only [startsPlain, hc, isFlowIndicator, decide_false, Bool.false_or, if_false, Bool.not_eq_true',
      Bool.or_eq_false_iff, decide_eq_false_iff_not, Bool.false_eq_true] at hstarts
    simp [hc, hstarts, hplain]

/-- A colon in front of a gap is read as the mark of a value. -/
theorem scanToken_colon {s : Scan} {more : List Char} (houter : s.outer = [])
    (hrest : s.cursor.rest = ':' :: more) (hmore : atGap more = true) : s.scanToken = s.scanValue := by
  have hflow : s.inFlow = false := by rw [inFlow, houter]; rfl
  have hmark : s.cursor.atDocumentMarker = false := by
    refine atDocumentMarker_of_solid fun c rest hc heq => ?_
    rw [hrest] at heq
    obtain ⟨rfl, -⟩ := List.cons.inj heq
    rcases hc with hc | hc <;> cases hc
  rw [scanToken]
  simp [hrest, hmark, hflow, hmore]

/-- The scanner is at the colon behind a candidate of a key, whose scalar is the last token. -/
structure AtColon (s : Scan) (more : List Char) (key : Candidate) (text : List Char)
    (tokens : List Token) : Prop where
  candidate : s.candidate = some key
  outer : s.outer = []
  ended : s.ended = false
  rest : s.cursor.rest = ':' :: more
  index : s.cursor.mark.index ≠ 0
  behind : key.mark.column ≤ s.cursor.mark.column
  fresh : Candidate.isStale s.cursor.mark key = false
  scalar : ∃ start stop, s.tokens = ⟨.scalar .plain text, start, stop⟩ :: tokens
  position : key.position = tokens.length

/-- A key becomes a scalar and a candidate. -/
theorem AtToken.scanPlainScalar_key {s : Scan} {key more : List Char} {column : Nat} {indent : Int}
    {indents : List Int} {kinds : List TokenKind}
    (h : AtToken s (key ++ ':' :: more) column indent indents kinds) (hindent : indent ≤ column)
    (hkey : isKey key = true) (hmore : atGap more = true) :
    ∃ after c, s.scanPlainScalar = .ok after ∧ AtColon after more c key s.tokens ∧
      c.mark = s.cursor.mark ∧ after.indent = s.indent ∧ after.indents = s.indents := by
  obtain ⟨⟨rest, mark⟩, tokens, released, indent, indents, keyAllowed, candidate, outer, ended⟩ := s
  obtain ⟨rfl, rfl, rfl, rfl, rfl, hindex, rfl, rfl, rfl, -⟩ := h
  replace hindent : indent ≤ mark.column := hindent
  have hfloor : (indent + 1).toNat ≤ mark.column + 1 := by omega
  have hplain : scanPlain false (indent + 1).toNat ⟨key ++ ':' :: more, mark⟩ =
      .ok ⟨key, mark.along key, false, ⟨':' :: more, mark.along key⟩⟩ :=
    scanPlain_key rfl hkey hmore hfloor
  obtain ⟨first, others, hwords⟩ := keyWords_of_isKey hkey
  have hlength := hwords.length_le
  have hfresh : Candidate.isStale (mark.along key)
      ⟨tokens.length, indent == (mark.column : Int), mark⟩ = false := by
    simp [Candidate.isStale, Mark.along]
    omega
  refine ⟨⟨⟨':' :: more, mark.along key⟩, ⟨.scalar .plain key, mark, mark.along key⟩ :: tokens, released,
    indent, indents, false, some ⟨tokens.length, indent == (mark.column : Int), mark⟩, [], false⟩, _, ?_,
    ⟨rfl, rfl, rfl, rfl, ?_, ?_, hfresh, ⟨mark, mark.along key, rfl⟩, rfl⟩, rfl, rfl, rfl⟩
  · simp [scanPlainScalar, addCandidate, dropCandidate, bind, Except.bind, pure, Except.pure, inFlow, push,
      hplain]
  · simp only [Mark.along]
    replace hindex : mark.index ≠ 0 := hindex
    omega
  · simp [Mark.along]

/-- A colon makes the candidate a key, and opens a mapping if the key is deeper than the open one. -/
theorem scanValue_key {s : Scan} {more : List Char} {key : Candidate} {scalar : Token}
    {tokens : List Token} (hcandidate : s.candidate = some key) (houter : s.outer = [])
    (hrest : s.cursor.rest = ':' :: more) (htokens : s.tokens = scalar :: tokens)
    (hposition : key.position = tokens.length) (hindent : s.indent ≤ key.mark.column) :
    s.scanValue = .ok { s with
      cursor := ⟨more, s.cursor.mark.next ':'⟩,
      tokens := ⟨.value, s.cursor.mark, s.cursor.mark.next ':'⟩ :: scalar :: ⟨.key, key.mark, key.mark⟩ ::
        (if s.indent = key.mark.column then tokens
          else ⟨.blockMappingStart, key.mark, key.mark⟩ :: tokens),
      indent := key.mark.column,
      indents := if s.indent = key.mark.column then s.indents else s.indent :: s.indents,
      keyAllowed := false,
      candidate := none } := by
  obtain ⟨⟨rest, mark⟩, tokens', released, indent, indents, keyAllowed, candidate, outer, ended⟩ := s
  obtain rfl : rest = ':' :: more := hrest
  obtain rfl : tokens' = scalar :: tokens := htokens
  obtain rfl : candidate = some key := hcandidate
  obtain rfl : outer = [] := houter
  obtain ⟨position, required, keyMark⟩ := key
  obtain rfl : position = tokens.length := hposition
  replace hindent : indent ≤ keyMark.column := hindent
  have hlater : tokens.length + 1 - tokens.length = 1 := by omega
  have hlater' : tokens.length + 1 + 1 - tokens.length = 2 := by omega
  by_cases heq : indent = keyMark.column
  · simp [scanValue, pushAt, openBlock, inFlow, pushIndicator, push, Cursor.skipN, Cursor.skip, pure,
      Except.pure, hlater, heq]
  · have hle : ¬ (keyMark.column : Int) ≤ indent := by omega
    simp [scanValue, pushAt, openBlock, inFlow, pushIndicator, push, Cursor.skipN, Cursor.skip, pure,
      Except.pure, hlater, hlater', heq, hle]

/-- A token on a line is read with nothing closed in front of it. -/
theorem next_onLine {s : Scan} {n : Nat} {text : List Char} (houter : s.outer = [])
    (hfresh : ∀ c, s.candidate = some c →
      Candidate.isStale (s.cursor.mark.along (List.replicate n ' ')) c = false)
    (hrest : s.cursor.rest = List.replicate n ' ' ++ text) (htext : BeginsLine text)
    (hindex : s.cursor.mark.index ≠ 0) (hindent : s.indent ≤ s.cursor.mark.column) :
    s.next = scanToken
      { s with cursor := ⟨text, s.cursor.mark.along (List.replicate n ' ')⟩ } := by
  have hdrop : dropStale { s with cursor := ⟨text, s.cursor.mark.along (List.replicate n ' ')⟩ } =
      .ok { s with cursor := ⟨text, s.cursor.mark.along (List.replicate n ' ')⟩ } :=
    dropStale_of_fresh houter hfresh
  have hle : s.indent ≤ ((s.cursor.mark.along (List.replicate n ' ')).column : Int) := by
    simp only [Mark.along]
    omega
  rw [next, skipToToken_spaces _ hrest htext hindex, hdrop]
  simp only [bind, Except.bind, closeBlocks, inFlow, houter, closeDeeper_of_le hle]
  rfl

/-- Behind a key its colon is read. -/
theorem AtColon.reaches {s : Scan} {more : List Char} {key : Candidate} {text : List Char}
    {tokens : List Token} (h : AtColon s more key text tokens) (hmore : atGap more = true)
    (hindent : s.indent ≤ key.mark.column) :
    ∃ s', Reaches s s' ∧ OnLine s' more key.mark.column
      (if s.indent = key.mark.column then s.indents else s.indent :: s.indents)
      (kindsOf tokens ++ ((if s.indent = key.mark.column then [] else [.blockMappingStart]) ++
        [.key, .scalar .plain text, .value])) := by
  have hself : ({ s with cursor := ⟨':' :: more, s.cursor.mark.along []⟩ } : Scan) = s := by
    rw [Mark.along_nil, ← h.rest]
  have hbehind := h.behind
  have hnext : s.next = s.scanToken := by
    rw [next_onLine (n := 0) h.outer (fun c hc => ?_) h.rest (beginsLine_cons.mpr (by decide)) h.index
      (by omega)]
    · exact congrArg scanToken hself
    · obtain rfl : key = c := Option.some.inj (h.candidate.symm.trans hc)
      exact h.fresh
  obtain ⟨start, stop, htokens⟩ := h.scalar
  rw [scanToken_colon h.outer h.rest hmore,
    scanValue_key h.candidate h.outer h.rest htokens h.position hindent] at hnext
  refine ⟨_, .step hnext h.ended (dropStale_of_none rfl h.outer) ?_ (.refl _), ?_⟩
  · simp [h.rest]
  · refine ⟨rfl, h.outer, h.ended, rfl, rfl, ?_, ?_, rfl, rfl, ?_⟩
    · simp [Mark.next, h.index]
    · simp only [Mark.next]
      omega
    · split <;> simp [kindsOf_cons]

/-- **A key and its colon are read**, with the collections closed that end in front of them, and a mapping
opened if the key is deeper than what is open. -/
theorem AtLine.reaches_key {s : Scan} {column : Nat} {key more : List Char}
    (h : AtLine s column (key ++ ':' :: more)) {indent : Int} {indents : List Int}
    {kinds : List TokenKind} (hcloses : Closes s column indent indents kinds) (hindent : indent ≤ column)
    (hkey : isKey key = true) (hmore : atGap more = true) :
    ∃ s', Reaches s s' ∧ OnLine s' more column
      (if indent = column then indents else indent :: indents)
      (kinds ++ ((if indent = column then [] else [.blockMappingStart]) ++
        [.key, .scalar .plain key, .value])) := by
  obtain ⟨first, others, hwords⟩ := keyWords_of_isKey hkey
  obtain ⟨t, hnext, ht⟩ := h.next_eq hcloses
  have hmark : t.cursor.atDocumentMarker = false := by
    obtain ⟨⟨rest, mark⟩, _⟩ := t
    obtain rfl : rest = key ++ ':' :: more := ht.rest
    exact hwords.atDocumentMarker
  have hrest : t.cursor.rest = first ++ (others.flatMap (' ' :: ·) ++ ':' :: more) := by
    rw [ht.rest, hwords.eq_join, joinWords, List.append_assoc]
  obtain ⟨after, c, hscalar, hcolon, hc, hafter, hafter'⟩ := ht.scanPlainScalar_key hindent hkey hmore
  rw [scanToken_word ht.outer hrest hwords.isFirst hmark, hscalar] at hnext
  have hdrop : after.dropStale = .ok after := by
    refine dropStale_of_fresh hcolon.outer fun d hd => ?_
    obtain rfl : c = d := Option.some.inj (hcolon.candidate.symm.trans hd)
    exact hcolon.fresh
  have hshorter : after.cursor.rest.length < s.cursor.rest.length := by
    have hle := h.length_le
    have hpos := List.length_pos_iff.mpr hwords.ne_nil
    rw [List.length_append] at hle
    rw [hcolon.rest]
    omega
  have hcolumn : c.mark.column = column := by rw [hc, ht.column]
  have hcolon' : AtColon { after with released := after.settled } more c key t.tokens :=
    ⟨hcolon.candidate, hcolon.outer, hcolon.ended, hcolon.rest, hcolon.index, hcolon.behind, hcolon.fresh,
      hcolon.scalar, hcolon.position⟩
  obtain ⟨s', hreaches, hline⟩ := hcolon'.reaches hmore (by
    simp only
    rw [hafter, hcolumn, ht.indent]
    exact hindent)
  simp only [hafter, hafter', hcolumn, ht.indent, ht.indents, ht.kinds] at hline
  exact ⟨s', .step hnext hcolon.ended hdrop hshorter hreaches, hline⟩

/-! ## §5 Values -/

/-- Closing what is deeper than a column, where that is no deeper than `indent`, first leaves these
collections open and gives these tokens. -/
def ClosesTo (s : Scan) (indent : Int) (indents : List Int) (kinds : List TokenKind) : Prop :=
  ∀ column ≤ indent, ∀ mark, ∃ tokens,
    closeDeeper column mark s.indents s.indent s.tokens = closeDeeper column mark indents indent tokens ∧
      kindsOf tokens = kinds

theorem ClosesTo.closes {s : Scan} {indent : Int} {indents : List Int} {kinds : List TokenKind}
    (h : ClosesTo s indent indents kinds) : Closes s indent indent indents kinds := by
  intro mark
  obtain ⟨tokens, hclose, hkinds⟩ := h indent (Int.le_refl _) mark
  exact ⟨tokens, by rw [hclose, closeDeeper_of_le (Int.le_refl _)], hkinds⟩

/-- At a shallower column the collection ends. -/
theorem ClosesTo.blockEnd {s : Scan} {around indent : Int} {indents : List Int} {kinds : List TokenKind}
    (h : ClosesTo s indent (around :: indents) kinds) (haround : around < indent) :
    ClosesTo s around indents (kinds ++ [.blockEnd]) := by
  intro column hcolumn mark
  obtain ⟨tokens, hclose, hkinds⟩ := h column (by omega) mark
  refine ⟨⟨.blockEnd, mark, mark⟩ :: tokens, ?_, by rw [kindsOf_cons, hkinds]⟩
  rw [hclose, closeDeeper, if_pos (by omega)]

theorem OnLine.closesTo {s : Scan} {text : List Char} {column : Nat} {indents : List Int}
    {kinds : List TokenKind} (h : OnLine s text column indents kinds) :
    ClosesTo s column indents kinds := by
  intro n _ mark
  exact ⟨s.tokens, by rw [h.indent, h.indents], h.kinds⟩

/-- At the end of a line the scanner goes on with the next. -/
theorem atLine_of_lineStart {s : Scan} {column : Nat} {text : List Char} (hcandidate : s.candidate = none)
    (houter : s.outer = []) (hended : s.ended = false) {comment : List Char} (hcomment : IsComment comment)
    (hrest : s.cursor.rest = comment ++ (lineStart column ++ text)) (htext : BeginsLine text) :
    AtLine s column text := by
  have hlength : s.cursor.rest.length = comment.length + (column + 1 + text.length) := by
    rw [hrest]
    simp only [lineStart, List.length_append, List.length_cons, List.length_replicate]
  obtain ⟨fuel, hfuel⟩ : ∃ fuel, s.cursor.rest.length + 1 = fuel + 2 :=
    ⟨s.cursor.rest.length - 1, by omega⟩
  refine ⟨hcandidate, houter, hended, by omega,
    ((s.cursor.mark.along comment).nextLine 1).along (List.replicate column ' '), ?_, ?_, ?_⟩
  · simp [Mark.along, Mark.nextLine]
  · simp [Mark.along, Mark.nextLine]
  · rw [hfuel, skipToToken_lineStart fuel hrest hcomment htext houter]

/-- Where nothing stands behind a key, the next line follows. -/
theorem OnLine.atLine {s : Scan} {column' : Nat} {text : List Char} {column : Nat} {indents : List Int}
    {kinds : List TokenKind} (h : OnLine s (lineStart column' ++ text) column indents kinds)
    (htext : BeginsLine text) : AtLine s column' text :=
  atLine_of_lineStart h.candidate h.outer h.ended isComment_nil h.rest htext

theorem beginsLine_of_isFirstWord {word : List Char} (h : isFirstWord word = true) (rest : List Char) :
    BeginsLine (word ++ rest) := by
  obtain ⟨hword, hstarts, -⟩ := isFirstWord_iff.mp h
  have hhead := head_ne_of_startsPlain hstarts
  obtain ⟨c, word, rfl⟩ := List.exists_cons_of_ne_nil (ne_nil_of_isWord hword)
  obtain ⟨hblank, hbreak⟩ := solid_of_isWord hword c (List.mem_cons_self ..)
  exact beginsLine_cons.mpr ⟨hblank, hbreak, fun heq => hhead (by rw [heq]; rfl)⟩

theorem beginsLine_of_isKey {key : List Char} (h : isKey key = true) (rest : List Char) :
    BeginsLine (key ++ rest) := by
  obtain ⟨first, others, hwords⟩ := keyWords_of_isKey h
  rw [hwords.eq_join, joinWords, List.append_assoc]
  exact beginsLine_of_isFirstWord hwords.isFirst _

/-- **Words behind a key are read as one scalar**, and the gap behind them. -/
theorem OnLine.reaches_words {s : Scan} {first : List Char} {others : List (List Char)} {column' : Nat}
    {text : List Char} {column : Nat} {indents : List Int} {kinds : List TokenKind}
    (h : OnLine s (' ' :: (joinWords first others ++ (lineStart column' ++ text))) column indents kinds)
    (hfirst : isFirstWord first = true) (hothers : others.all isLaterWord = true)
    (htext : BeginsLine text) (hcolumn : column' ≤ column) :
    ∃ s', Reaches s s' ∧ AtLine s' column' text ∧
      ClosesTo s' column indents (kinds ++ [.scalar .plain (joinWords first others)]) := by
  obtain ⟨⟨rest, mark⟩, tokens, released, indent, stack, keyAllowed, candidate, outer, ended⟩ := s
  obtain ⟨rfl, rfl, rfl, rfl, rfl, hindex, hbehind, rfl, rfl, rfl⟩ := h
  replace hindex : mark.index ≠ 0 := hindex
  replace hbehind : column < mark.column := hbehind
  have hword : BeginsLine (joinWords first others ++ (lineStart column' ++ text)) := by
    rw [joinWords, List.append_assoc]
    exact beginsLine_of_isFirstWord hfirst _
  have hfloor : ((column : Int) + 1).toNat = column + 1 := by omega
  obtain ⟨stop, mark', hindex', hcolumn', hplain⟩ : ∃ stop mark', mark'.index ≠ 0 ∧
      mark'.column = column' ∧
      scanPlain false (column + 1)
          ⟨joinWords first others ++ (lineStart column' ++ text), mark.next ' '⟩ =
        .ok ⟨joinWords first others, stop, true, ⟨text, mark'⟩⟩ := by
    refine ⟨_, _, ?_, ?_, scanPlain_words rfl hfirst hothers htext (by omega) ?_⟩
    · simp [Mark.along, Mark.nextLine]
    · simp [Mark.along, Mark.nextLine]
    · simp only [Mark.next]
      omega
  have hmark : (⟨joinWords first others ++ (lineStart column' ++ text), mark.next ' '⟩ :
      Cursor).atDocumentMarker = false := atDocumentMarker_of_column (by simp [Mark.next])
  have hnext : next ⟨⟨' ' :: (joinWords first others ++ (lineStart column' ++ text)), mark⟩, tokens, released,
      column, stack, false, none, [], false⟩ = .ok ⟨⟨text, mark'⟩,
        ⟨.scalar .plain (joinWords first others), mark.next ' ', stop⟩ :: tokens, released, column, stack,
        true, none, [], false⟩ := by
    refine (next_onLine (n := 1) rfl (fun _ hc => by cases hc) rfl hword hindex
      (Int.ofNat_le.mpr (Nat.le_of_lt hbehind))).trans ?_
    refine (scanToken_word rfl (List.append_assoc ..) hfirst hmark).trans ?_
    simp [scanPlainScalar, addCandidate, bind, Except.bind, pure, Except.pure, inFlow, push, hfloor,
      Mark.along_cons, Mark.along_nil, hplain]
  refine ⟨_, .step hnext rfl (dropStale_of_none rfl rfl) ?_ (.refl _), ?_, ?_⟩
  · simp [lineStart]
    omega
  · refine ⟨rfl, rfl, rfl, Nat.le_refl _, mark', hindex', hcolumn', ?_⟩
    exact skipToToken_spaces (n := 0) _ rfl htext hindex'
  · intro n _ m
    exact ⟨_, rfl, kindsOf_cons _ _⟩

/-- **A text in quotes behind a key is read as a scalar.** -/
theorem OnLine.reaches_quoted {s : Scan} {content : List Char} {column' : Nat} {text : List Char}
    {column : Nat} {indents : List Int} {kinds : List TokenKind}
    (h : OnLine s (' ' :: '"' :: (content ++ '"' :: (lineStart column' ++ text))) column indents kinds)
    (hcontent : content.all isQuotable = true) (htext : BeginsLine text) :
    ∃ s', Reaches s s' ∧ AtLine s' column' text ∧
      ClosesTo s' column indents (kinds ++ [.scalar .doubleQuoted content]) := by
  obtain ⟨⟨rest, mark⟩, tokens, released, indent, stack, keyAllowed, candidate, outer, ended⟩ := s
  obtain ⟨rfl, rfl, rfl, rfl, rfl, hindex, hbehind, rfl, rfl, rfl⟩ := h
  replace hindex : mark.index ≠ 0 := hindex
  replace hbehind : column < mark.column := hbehind
  have hquote : BeginsLine ('"' :: (content ++ '"' :: (lineStart column' ++ text))) :=
    beginsLine_cons.mpr (by decide)
  obtain ⟨mark', hquoted⟩ : ∃ mark',
      scanQuoted '"' ⟨'"' :: (content ++ '"' :: (lineStart column' ++ text)), mark.next ' '⟩ =
        .ok (content, ⟨lineStart column' ++ text, mark'⟩) := ⟨_, scanQuoted_text rfl hcontent⟩
  have hmark : (⟨'"' :: (content ++ '"' :: (lineStart column' ++ text)), mark.next ' '⟩ :
      Cursor).atDocumentMarker = false := atDocumentMarker_of_column (by simp [Mark.next])
  have hnext : next ⟨⟨' ' :: '"' :: (content ++ '"' :: (lineStart column' ++ text)), mark⟩, tokens, released,
      column, stack, false, none, [], false⟩ = .ok ⟨⟨lineStart column' ++ text, mark'⟩,
        ⟨.scalar .doubleQuoted content, mark.next ' ', mark'⟩ :: tokens, released, column, stack,
        false, none, [], false⟩ := by
    refine (next_onLine (n := 1) rfl (fun _ hc => by cases hc) rfl hquote hindex
      (Int.ofNat_le.mpr (Nat.le_of_lt hbehind))).trans ?_
    rw [List.replicate_one, Mark.along_cons, Mark.along_nil, scanToken]
    simp [hmark, inFlow, scanQuotedScalar, addCandidate, bind, Except.bind, pure, Except.pure, push, hquoted]
  refine ⟨_, .step hnext rfl (dropStale_of_none rfl rfl) ?_ (.refl _), ?_, ?_⟩
  · simp [lineStart]
    omega
  · exact atLine_of_lineStart rfl rfl rfl isComment_nil rfl htext
  · intro n _ m
    exact ⟨_, rfl, kindsOf_cons _ _⟩

/-! ## §6 Documents -/

/-- Behind the colon of a key there is a gap. -/
theorem atGap_chars (depth column : Nat) (b : Block) (text : List Char) :
    atGap (b.chars depth ++ (lineStart column ++ text)) = true := by
  cases b with
  | nothing => rfl
  | words first others => rfl
  | quoted content => rfl
  | mapping entries =>
    cases entries with
    | nil => rfl
    | cons e rest => rfl

/-- A value is read as it is written: from behind the colon of its key the scanner gets to the next line,
and it has the tokens of the value up to what is closed in front of that line. -/
def ReadsBlock (b : Block) : Prop :=
  ∀ {room depth column : Nat} {text : List Char} {s : Scan} {indents : List Int} {kinds : List TokenKind},
    b.isLegible room = true → BeginsLine text → column ≤ 2 * depth →
    OnLine s (b.chars depth ++ (lineStart column ++ text)) (2 * depth : Nat) indents kinds →
    ∃ s', Reaches s s' ∧ AtLine s' column text ∧
      ClosesTo s' (2 * depth : Nat) indents (kinds ++ b.kinds)

/-- The text of the entries of a mapping from the first key on, and of what follows them. -/
def entriesText (depth : Nat) (key : List Char) (b : Block) (rest : List (List Char × Block))
    (after : List Char) : List Char :=
  key ++ ':' :: (b.chars depth ++ (Block.lines depth rest ++ after))

theorem lines_cons_append (depth : Nat) (key : List Char) (b : Block) (rest : List (List Char × Block))
    (after : List Char) : Block.lines depth ((key, b) :: rest) ++ after =
      lineStart (2 * depth) ++ entriesText depth key b rest after := by
  simp [Block.lines, entriesText]

/-- The entries of a mapping are read one after the other. The mapping is opened in front of them if they
are deeper than what is open. -/
theorem AtLine.reaches_entries {room depth column : Nat} {text : List Char} (htext : BeginsLine text)
    (hcolumn : column ≤ 2 * depth) {key : List Char} {b : Block} {rest : List (List Char × Block)}
    (hreads : ∀ e ∈ (key, b) :: rest, ReadsBlock e.2)
    (hlegible : Block.areLegible room ((key, b) :: rest) = true) {s : Scan} {indent : Int}
    {indents : List Int} {kinds : List TokenKind}
    (h : AtLine s (2 * depth) (entriesText depth key b rest (lineStart column ++ text)))
    (hcloses : Closes s (2 * depth : Nat) indent indents kinds) (hindent : indent ≤ (2 * depth : Nat)) :
    ∃ s', Reaches s s' ∧ AtLine s' column text ∧
      ClosesTo s' (2 * depth : Nat) (if indent = (2 * depth : Nat) then indents else indent :: indents)
        (kinds ++ ((if indent = (2 * depth : Nat) then [] else [.blockMappingStart]) ++
          Block.entryKinds ((key, b) :: rest))) := by
  induction rest generalizing key b s indent indents kinds with
  | nil =>
    obtain ⟨hkey, -, hb, hrest⟩ := Block.areLegible_cons.mp hlegible
    obtain ⟨s₁, hreaches, honLine⟩ :=
      h.reaches_key hcloses hindent hkey (atGap_chars depth column b text)
    obtain ⟨s₂, hreaches', hline, hcloses'⟩ :=
      hreads _ (List.mem_cons_self ..) hb htext hcolumn honLine
    refine ⟨s₂, hreaches.append hreaches', hline, ?_⟩
    simpa [Block.entryKinds] using hcloses'
  | cons next rest ih =>
    obtain ⟨hkey, -, hb, hrest⟩ := Block.areLegible_cons.mp hlegible
    obtain ⟨nextKey, next⟩ := next
    have hnext : BeginsLine (entriesText depth nextKey next rest (lineStart column ++ text)) :=
      beginsLine_of_isKey (Block.areLegible_cons.mp hrest).1 _
    rw [entriesText, lines_cons_append] at h
    obtain ⟨s₁, hreaches, honLine⟩ :=
      h.reaches_key hcloses hindent hkey (atGap_chars depth _ b _)
    obtain ⟨s₂, hreaches', hline, hcloses'⟩ :=
      hreads _ (List.mem_cons_self ..) hb hnext (Nat.le_refl _) honLine
    obtain ⟨s₃, hreaches'', hline', hcloses''⟩ :=
      ih (fun e he => hreads e (List.mem_cons_of_mem _ he)) hrest hline hcloses'.closes (Int.le_refl _)
    refine ⟨s₃, hreaches.append (hreaches'.append hreaches''), hline', ?_⟩
    rw [if_pos rfl, if_pos rfl] at hcloses''
    simpa [Block.entryKinds] using hcloses''

/-- **Every legible value is read as it is written.** -/
theorem readsBlock (b : Block) : ReadsBlock b := by
  induction b using Block.induction with
  | nothing =>
    intro room depth column text s indents kinds _ htext _ h
    refine ⟨s, .refl s, h.atLine htext, ?_⟩
    rw [Block.kinds, List.append_nil]
    exact h.closesTo
  | words first others =>
    intro room depth column text s indents kinds hlegible htext hcolumn h
    obtain ⟨hfirst, hothers, -⟩ := Block.isLegible_words.mp hlegible
    exact h.reaches_words hfirst hothers htext hcolumn
  | quoted content =>
    intro room depth column text s indents kinds hlegible htext _ h
    rw [Block.isLegible] at hlegible
    have hchars : Block.chars depth (.quoted content) ++ (lineStart column ++ text) =
        ' ' :: '"' :: (content ++ '"' :: (lineStart column ++ text)) := by simp [Block.chars]
    rw [hchars] at h
    exact h.reaches_quoted hlegible htext
  | mapping entries ih =>
    intro room depth column text s indents kinds hlegible htext hcolumn h
    obtain ⟨within, rfl, hne, hlegibles⟩ := Block.isLegible_mapping.mp hlegible
    obtain ⟨⟨key, b⟩, rest, rfl⟩ := List.exists_cons_of_ne_nil hne
    rw [Block.chars, lines_cons_append] at h
    have hbegins : BeginsLine (entriesText (depth + 1) key b rest (lineStart column ++ text)) :=
      beginsLine_of_isKey (Block.areLegible_cons.mp hlegibles).1 _
    have hcloses : Closes s (2 * (depth + 1) : Nat) (2 * depth : Nat) indents kinds := fun mark =>
      ⟨s.tokens, by rw [h.indent, h.indents, closeDeeper_of_le (by omega)], h.kinds⟩
    obtain ⟨s', hreaches, hline, hcloses'⟩ :=
      (h.atLine hbegins).reaches_entries htext (by omega) ih hlegibles hcloses (by omega)
    have hdeeper : ¬ ((2 * depth : Nat) : Int) = (2 * (depth + 1) : Nat) := by omega
    rw [if_neg hdeeper, if_neg hdeeper] at hcloses'
    refine ⟨s', hreaches, hline, ?_⟩
    simpa [Block.kinds] using hcloses'.blockEnd (by omega)

/-- A text of permitted characters is not cut. -/
theorem splitAtForbidden_of_permitted {text : List Char} (h : ∀ c ∈ text, isPermitted c = true)
    (complete block : List Char) (used offset : Nat) :
    splitAtForbidden complete block used offset text =
      (complete.reverse ++ (block.reverse ++ text), none) := by
  induction text generalizing complete block used offset with
  | nil => simp [splitAtForbidden]
  | cons c text ih =>
    have hc := h c (List.mem_cons_self ..)
    have hrest := fun d hd => h d (List.mem_cons_of_mem c hd)
    rw [splitAtForbidden]
    simp only [hc, if_true]
    split
    · rw [ih hrest]
      simp
    · rw [ih hrest]
      simp

/-- The end of the text closes what is open, and a document has one mapping open at most. -/
theorem AtLine.run_eq {s : Scan} (h : AtLine s 0 []) {around : Int} {kinds : List TokenKind}
    (hcloses : ClosesTo s (0 : Nat) [around] kinds) (fuel : Nat) :
    ∃ tokens, run none (fuel + 1) s = ⟨tokens, none⟩ ∧
      tokens.map (·.kind) = kinds ++ [.blockEnd, .streamEnd] := by
  obtain ⟨t, hnext, ht⟩ := h.next_eq hcloses.closes
  obtain ⟨⟨rest, mark⟩, tokens, released, indent, stack, keyAllowed, candidate, outer, ended⟩ := t
  obtain ⟨rfl, rfl, rfl, rfl, rfl, -, hcolumn, rfl, rfl, rfl⟩ := ht
  replace hcolumn : mark.column = 0 := hcolumn
  refine ⟨(⟨.streamEnd, mark, mark⟩ :: ⟨.blockEnd, mark, mark⟩ :: tokens).reverse, ?_, ?_⟩
  · rw [run, hnext, scanToken]
    simp [scanEnd, hcolumn, closeBlocks, inFlow, closeDeeper, dropCandidate, push, bind, Except.bind,
      pure, Except.pure]
  · simp [kindsOf]

theorem isPermitted_of_isLineChar {c : Char} (h : isLineChar c = true) : isPermitted c = true := by
  rw [isLineChar, Bool.and_eq_true] at h
  exact h.1

theorem isPermitted_of_isWord {word : List Char} (h : isWord word = true) :
    ∀ c ∈ word, isPermitted c = true := by
  intro c hc
  simp only [isWord, Bool.and_eq_true, List.all_eq_true] at h
  exact isPermitted_of_isLineChar (h.1.2 c hc).1

theorem isPermitted_joinWords {first : List Char} {others : List (List Char)}
    (hfirst : isFirstWord first = true) (hothers : others.all isLaterWord = true) :
    ∀ c ∈ joinWords first others, isPermitted c = true := by
  intro c hc
  simp only [joinWords, List.mem_append, List.mem_flatMap, List.mem_cons] at hc
  rcases hc with hc | ⟨word, hword, rfl | hc⟩
  · exact isPermitted_of_isWord (isFirstWord_iff.mp hfirst).1 c hc
  · decide
  · exact isPermitted_of_isWord (isWord_of_isLaterWord (List.all_eq_true.mp hothers word hword)).1 c hc

theorem isPermitted_lineStart (column : Nat) : ∀ c ∈ lineStart column, isPermitted c = true := by
  intro c hc
  rcases List.mem_cons.mp hc with rfl | hc
  · decide
  · rw [List.eq_of_mem_replicate hc]
    decide

/-- The text of a mapping is permitted if the texts of its values are. -/
theorem isPermitted_lines {room : Nat} (depth : Nat) {entries : List (List Char × Block)}
    (hvalues : ∀ e ∈ entries, ∀ {room : Nat} (depth : Nat), e.2.isLegible room = true →
      ∀ c ∈ e.2.chars depth, isPermitted c = true)
    (h : Block.areLegible room entries = true) :
    ∀ c ∈ Block.lines depth entries, isPermitted c = true := by
  induction entries with
  | nil => exact fun c hc => by cases hc
  | cons e rest ih =>
    obtain ⟨key, b⟩ := e
    obtain ⟨hkey, -, hb, hrest⟩ := Block.areLegible_cons.mp h
    obtain ⟨first, others, hwords⟩ := keyWords_of_isKey hkey
    intro c hc
    simp only [Block.lines, List.mem_append, List.mem_cons] at hc
    rcases hc with hc | hc | rfl | hc | hc
    · exact isPermitted_lineStart _ c hc
    · rw [hwords.eq_join] at hc
      exact isPermitted_joinWords hwords.isFirst hwords.areLater c hc
    · decide
    · exact hvalues _ (List.mem_cons_self ..) depth hb c hc
    · exact ih (fun e he => hvalues e (List.mem_cons_of_mem _ he)) hrest c hc

theorem isPermitted_chars (b : Block) : ∀ {room : Nat} (depth : Nat), b.isLegible room = true →
    ∀ c ∈ b.chars depth, isPermitted c = true := by
  induction b using Block.induction with
  | nothing => exact fun _ _ c hc => by cases hc
  | words first others =>
    intro room depth h c hc
    obtain ⟨hfirst, hothers, -⟩ := Block.isLegible_words.mp h
    rcases List.mem_cons.mp hc with rfl | hc
    · decide
    · exact isPermitted_joinWords hfirst hothers c hc
  | quoted text =>
    intro room depth h c hc
    rw [Block.isLegible, List.all_eq_true] at h
    simp only [Block.chars, List.mem_cons, List.mem_append, List.not_mem_nil, or_false] at hc
    rcases hc with rfl | rfl | hc | rfl
    · decide
    · decide
    · exact (isQuotable_iff.mp (h c hc)).1
    · decide
  | mapping entries ih =>
    intro room depth h
    obtain ⟨within, rfl, -, hentries⟩ := Block.isLegible_mapping.mp h
    exact isPermitted_lines (depth + 1) ih hentries

/-- **The tokens of a document** are those of its entries, and there is no error. -/
theorem tokens_document {room : Nat} {comment : List Char} {entries : List (List Char × Block)}
    (hcomment : comment.all isLineChar = true)
    (hlegible : (Block.mapping entries).isLegible room = true) :
    ∃ tokens, Tokens.ofText (Block.document comment entries) = ⟨tokens, none⟩ ∧
      tokens.map (·.kind) = (Block.mapping entries).kinds ++ [.streamEnd] := by
  obtain ⟨within, rfl, hne, hlegibles⟩ := Block.isLegible_mapping.mp hlegible
  have hpermitted : ∀ c ∈ Block.document comment entries, isPermitted c = true := by
    intro c hc
    simp only [Block.document, List.mem_cons, List.mem_append] at hc
    rcases hc with rfl | hc | hc | hc
    · decide
    · exact isPermitted_of_isLineChar (List.all_eq_true.mp hcomment c hc)
    · exact isPermitted_lines 0 (fun e _ {room} => isPermitted_chars e.2) hlegibles c hc
    · exact isPermitted_lineStart 0 c hc
  obtain ⟨⟨key, b⟩, rest, rfl⟩ := List.exists_cons_of_ne_nil hne
  have hheader : IsComment ('#' :: comment) := by
    refine ⟨fun c hc => (Option.some.inj hc).symm, fun c hc => ?_⟩
    rcases List.mem_cons.mp hc with rfl | hc
    · decide
    · have hline := List.all_eq_true.mp hcomment c hc
      simp only [isLineChar, Bool.and_eq_true, Bool.not_eq_true'] at hline
      exact hline.2
  have hbegins : BeginsLine (entriesText 0 key b rest (lineStart 0)) :=
    beginsLine_of_isKey (Block.areLegible_cons.mp hlegibles).1 _
  have hstart : AtLine (.ofText (Block.document comment ((key, b) :: rest))) 0
      (entriesText 0 key b rest (lineStart 0 ++ [])) := by
    refine atLine_of_lineStart rfl rfl rfl hheader ?_ (by rwa [List.append_nil])
    have hlines := lines_cons_append 0 key b rest (lineStart 0)
    rw [List.append_nil]
    exact congrArg ('#' :: comment ++ ·) hlines
  have hindent : (-1 : Int) ≤ (2 * 0 : Nat) := by decide
  have hcloses : Closes (.ofText (Block.document comment ((key, b) :: rest))) (2 * 0 : Nat) (-1) [] [] :=
    fun mark => ⟨[], closeDeeper_of_le hindent mark [] [], rfl⟩
  obtain ⟨s, hreaches, hline, hcloses'⟩ :=
    hstart.reaches_entries beginsLine_nil (Nat.le_refl _) (fun e _ => readsBlock e.2) hlegibles hcloses
      hindent
  obtain ⟨fuel, hfuel, hrun⟩ := hreaches.run_eq _ (Nat.lt_succ_of_lt (Nat.lt_succ_self _))
  obtain ⟨fuel, rfl⟩ := Nat.exists_eq_succ_of_ne_zero (Nat.ne_zero_of_lt hfuel)
  obtain ⟨tokens, hend, hkinds⟩ := hline.run_eq hcloses' fuel
  refine ⟨tokens, ?_, ?_⟩
  · rw [Tokens.ofText, splitAtForbidden_of_permitted hpermitted]
    exact hrun.trans hend
  · simpa [Block.kinds] using hkinds

end RouteStubs.Yaml.Scan
