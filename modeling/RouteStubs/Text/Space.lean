/-!
White space, words and lines of a text.

A text is a `List Char` here, so that every function below is a plain recursion on it. White space is
the Unicode property White_Space, a word is a maximal run of other characters, and a line ends at a
line feed, with one carriage return before it counted as part of the ending.
-/

namespace RouteStubs.Text

/-! ## §1 Character classes -/

/-- The Unicode property White_Space. -/
def isSpace (c : Char) : Bool :=
  let n := c.toNat
  (9 ≤ n && n ≤ 13) || n == 0x20 || n == 0x85 || n == 0xA0 || n == 0x1680 ||
    (0x2000 ≤ n && n ≤ 0x200A) || n == 0x2028 || n == 0x2029 || n == 0x202F || n == 0x205F ||
    n == 0x3000

/-- The general category Cc: the two blocks of control codes. -/
def isControl (c : Char) : Bool :=
  let n := c.toNat
  n < 0x20 || (0x7F ≤ n && n ≤ 0x9F)

/-- The digits `0` to `9`. -/
def isDigit (c : Char) : Bool := '0' ≤ c && c ≤ '9'

/-- The letters `A` to `Z` and `a` to `z`. -/
def isLetter (c : Char) : Bool := ('A' ≤ c && c ≤ 'Z') || ('a' ≤ c && c ≤ 'z')

/-- ASCII letters and digits. -/
def isAlphanumeric (c : Char) : Bool := isLetter c || isDigit c

/-! ## §2 Trimming -/

/-- The text without its leading white space. -/
def trimStart (s : List Char) : List Char := s.dropWhile isSpace

/-- The text without its trailing white space. -/
def trimEnd (s : List Char) : List Char := (s.reverse.dropWhile isSpace).reverse

/-- The text without white space at either end. -/
def trim (s : List Char) : List Char := trimEnd (trimStart s)

/-! ## §3 Words -/

/-- Puts a word in front of a list of words, unless it is empty. -/
def consWord (word : List Char) (words : List (List Char)) : List (List Char) :=
  if word.isEmpty then words else word :: words

/-- The word that the text starts with (empty before white space), and the words after it. -/
def splitWords : List Char → List Char × List (List Char)
  | [] => ([], [])
  | c :: rest =>
    let (word, words) := splitWords rest
    if isSpace c then ([], consWord word words) else (c :: word, words)

/-- The maximal runs of characters that are not white space, in order. -/
def words (s : List Char) : List (List Char) :=
  let (word, words) := splitWords s
  consWord word words

/-! ## §4 Lines -/

/-- The pieces of the text between line feeds; one more than there are line feeds. -/
def splitLines : List Char → List (List Char)
  | [] => [[]]
  | c :: rest =>
    if c = '\n' then [] :: splitLines rest else (splitLines rest).modifyHead (c :: ·)

/-- Drops one carriage return from the end. -/
def dropReturn (line : List Char) : List Char :=
  if line.getLast? = some '\r' then line.dropLast else line

/-- The lines of a text. A line feed ends a line together with one carriage return before it; the
last line needs no line feed, and there is no empty line after the last one. -/
def lines (s : List Char) : List (List Char) :=
  let pieces := splitLines s
  let ended := pieces.dropLast.map dropReturn
  match pieces.getLast? with
  | none | some [] => ended
  | some last => ended ++ [last]

/-- Every line, each ended by a line feed. -/
def unlines (lines : List (List Char)) : List Char := lines.flatMap (· ++ ['\n'])

end RouteStubs.Text
