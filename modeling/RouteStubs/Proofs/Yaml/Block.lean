import RouteStubs.Yaml.Document
/-!
Documents in block style.

A `Block` is a value together with how it is written: every key on a line of its own, two spaces in front
of it for each mapping around it, and the value behind it on its line or, for a mapping, on the lines below.
A line break stands at the start of a line and not at its end, so that each line is a piece of text that
the line before it leaves untouched.

`Block.isLegible` says when the text means what it should: which characters may stand where, that no key is
used twice, and that mappings are not nested too deeply.
-/

namespace RouteStubs.Yaml

/-! ## §1 Texts -/

/-- A value as it is written in block style: nothing, words separated by single spaces, a text in double
quotes, or a mapping. -/
inductive Block where
  | nothing
  | words (first : List Char) (others : List (List Char))
  | quoted (text : List Char)
  | mapping (entries : List (List Char × Block))

/-- The text of words. -/
def joinWords (first : List Char) (others : List (List Char)) : List Char :=
  first ++ others.flatMap (' ' :: ·)

/-- A line up to the column where it has its first character. -/
def lineStart (column : Nat) : List Char := '\n' :: List.replicate column ' '

mutual

/-- The text of a value behind its key. -/
def Block.chars (depth : Nat) : Block → List Char
  | .nothing => []
  | .words first others => ' ' :: joinWords first others
  | .quoted text => ' ' :: '"' :: (text ++ ['"'])
  | .mapping entries => Block.lines (depth + 1) entries
termination_by structural b => b

/-- The lines of the entries of a mapping. -/
def Block.lines (depth : Nat) : List (List Char × Block) → List Char
  | [] => []
  | (key, b) :: rest =>
    lineStart (2 * depth) ++ (key ++ ':' :: (Block.chars depth b ++ Block.lines depth rest))
termination_by structural entries => entries

end

/-- A document: a comment on the first line, and the entries of a mapping. -/
def Block.document (comment : List Char) (entries : List (List Char × Block)) : List Char :=
  '#' :: (comment ++ (Block.lines 0 entries ++ lineStart 0))

/-! ## §2 Values -/

mutual

/-- The value that is written. -/
def Block.value : Block → Value
  | .nothing => .null
  | .words first others => (plainValue (joinWords first others)).toOption.getD .null
  | .quoted text => .text (String.ofList text)
  | .mapping entries => .mapping (Block.entryValues entries)
termination_by structural b => b

/-- The entries that are written. -/
def Block.entryValues : List (List Char × Block) → List (Value × Value)
  | [] => []
  | (key, b) :: rest => (.text (String.ofList key), Block.value b) :: Block.entryValues rest
termination_by structural entries => entries

end

/-! ## §3 Legibility -/

/-- A character that may stand on a line. -/
def isLineChar (c : Char) : Bool := isPermitted c && !isBreak c

/-- A run of characters without a gap that does not end with a colon. -/
def isWord (word : List Char) : Bool :=
  !word.isEmpty && word.all (fun c => isLineChar c && !isBlank c) && word.getLast? != some ':'

/-- A word that a plain scalar may start with. -/
def isFirstWord (word : List Char) : Bool :=
  isWord word && Scan.startsPlain false word && word != ['-']

/-- A word that may follow another. -/
def isLaterWord (word : List Char) : Bool := isWord word && word.head? != some '#'

/-- A mark of the start or the end of a document. -/
def isDocumentMarker (word : List Char) : Bool := word == ['-', '-', '-'] || word == ['.', '.', '.']

/-- Words that together are read as a text, short enough to be a key. -/
def isKey (key : List Char) : Bool :=
  (match key.splitOn ' ' with
    | [] => false
    | first :: others => isFirstWord first && others.all isLaterWord && !isDocumentMarker first) &&
  decide (Text.byteLength key ≤ 1024) &&
    match plainValue key with
    | .ok (.text s) => s == String.ofList key
    | _ => false

/-- A character that stands for itself in double quotes. -/
def isQuotable (c : Char) : Bool := isLineChar c && c != '"' && c != '\\'

mutual

/-- The value can be written, with mappings nested up to `room` deep. -/
def Block.isLegible (room : Nat) : Block → Bool
  | .nothing => true
  | .words first others =>
    isFirstWord first && others.all isLaterWord && (plainValue (joinWords first others)).isOk
  | .quoted text => text.all isQuotable
  | .mapping entries =>
    match room with
    | 0 => false
    | room + 1 => !entries.isEmpty && Block.areLegible room entries
termination_by structural b => b

/-- The entries can be written, with mappings in them nested up to `room` deep. -/
def Block.areLegible (room : Nat) : List (List Char × Block) → Bool
  | [] => true
  | (key, b) :: rest =>
    isKey key && rest.all (·.1 != key) && Block.isLegible room b && Block.areLegible room rest
termination_by structural entries => entries

end

/-- Induction over what is written: a property of all values in a mapping passes on to it. -/
theorem Block.induction {motive : Block → Prop} (nothing : motive .nothing)
    (words : ∀ first others, motive (.words first others)) (quoted : ∀ text, motive (.quoted text))
    (mapping : ∀ entries, (∀ e ∈ entries, motive e.2) → motive (.mapping entries)) (b : Block) :
    motive b :=
  match b with
  | .nothing => nothing
  | .words first others => words first others
  | .quoted text => quoted text
  | .mapping entries => mapping entries fun e _ => Block.induction nothing words quoted mapping e.2
termination_by sizeOf b
decreasing_by
  next hmem =>
  have hlt : sizeOf e < sizeOf entries := List.sizeOf_lt_of_mem hmem
  obtain ⟨key, b⟩ := e
  simp only [Prod.mk.sizeOf_spec, Block.mapping.sizeOf_spec] at hlt ⊢
  omega

theorem isFirstWord_iff {word : List Char} : isFirstWord word = true ↔
    isWord word = true ∧ Scan.startsPlain false word = true ∧ word ≠ ['-'] := by
  simp [isFirstWord, and_assoc]

theorem joinWords_cons (word next : List Char) (others : List (List Char)) :
    joinWords word (next :: others) = word ++ ' ' :: joinWords next others := by
  simp [joinWords]

theorem joinWords_eq_intercalate (first : List Char) (others : List (List Char)) :
    joinWords first others = [' '].intercalate (first :: others) := by
  induction others generalizing first with
  | nil => simp [joinWords]
  | cons next others ih => rw [joinWords_cons, ih, List.intercalate_cons_cons]; simp

/-- A key with the words that it is made of. -/
structure KeyWords (key first : List Char) (others : List (List Char)) : Prop where
  eq_join : key = joinWords first others
  isFirst : isFirstWord first = true
  areLater : others.all isLaterWord = true
  notMarker : isDocumentMarker first = false
  length_le : Text.byteLength key ≤ 1024
  value : plainValue key = .ok (.text (String.ofList key))

theorem keyWords_of_isKey {key : List Char} (h : isKey key = true) :
    ∃ first others, KeyWords key first others := by
  have hjoin : [' '].intercalate (key.splitOn ' ') = key := List.intercalate_splitOn ' '
  rw [isKey, Bool.and_eq_true, Bool.and_eq_true, decide_eq_true_iff] at h
  obtain ⟨⟨hwords, hlength⟩, hvalue⟩ := h
  split at hwords
  case h_1 => cases hwords
  case h_2 first others hsplit =>
    rw [hsplit, ← joinWords_eq_intercalate] at hjoin
    simp only [Bool.and_eq_true, Bool.not_eq_true'] at hwords
    refine ⟨first, others, hjoin.symm, hwords.1.1, hwords.1.2, hwords.2, hlength, ?_⟩
    split at hvalue
    case h_1 s heq => rw [heq, beq_iff_eq.mp hvalue]
    case h_2 => cases hvalue

theorem Block.isLegible_words {room : Nat} {first : List Char} {others : List (List Char)} :
    (Block.words first others).isLegible room = true ↔
      isFirstWord first = true ∧ others.all isLaterWord = true ∧
        ∃ v, plainValue (joinWords first others) = .ok v := by
  rw [Block.isLegible, Bool.and_eq_true, Bool.and_eq_true, and_assoc]
  cases plainValue (joinWords first others) <;> simp [Except.isOk, Except.toBool]

theorem Block.isLegible_mapping {room : Nat} {entries : List (List Char × Block)} :
    (Block.mapping entries).isLegible room = true ↔
      ∃ within, room = within + 1 ∧ entries ≠ [] ∧ Block.areLegible within entries = true := by
  cases room with
  | zero => simp [Block.isLegible]
  | succ room => simp [Block.isLegible]

theorem Block.areLegible_cons {room : Nat} {key : List Char} {b : Block}
    {rest : List (List Char × Block)} :
    Block.areLegible room ((key, b) :: rest) = true ↔
      isKey key = true ∧ (∀ e ∈ rest, e.1 ≠ key) ∧ b.isLegible room = true ∧
        Block.areLegible room rest = true := by
  simp [Block.areLegible, and_assoc]

end RouteStubs.Yaml
