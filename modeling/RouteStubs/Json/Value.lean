/-!
JSON values and their indented text.

Only what a listing needs: truth values, texts, lists, and records whose fields have an order. The text
has one item or field on a line, two spaces deeper than what holds it; a list or record with nothing in it
stays on its line.
-/

namespace RouteStubs.Json

/-- A JSON value. -/
inductive Value where
  | bool (b : Bool)
  | text (s : String)
  | list (items : List Value)
  | record (fields : List (String × Value))
  deriving Repr, Inhabited

/-- A hexadecimal digit, in small letters. -/
def hexDigit (n : Nat) : Char := if n < 10 then Char.ofNat (48 + n) else Char.ofNat (87 + n)

/-- A character within quotes: quotes, backslashes and control codes below the space are escaped, by a
letter where there is one. -/
def escaped (c : Char) : List Char :=
  if c = '"' then ['\\', '"']
  else if c = '\\' then ['\\', '\\']
  else if c = '\n' then ['\\', 'n']
  else if c = '\r' then ['\\', 'r']
  else if c = '\t' then ['\\', 't']
  else if c = '\x08' then ['\\', 'b']
  else if c = '\x0c' then ['\\', 'f']
  else if c.toNat < 0x20 then
    ['\\', 'u', '0', '0', hexDigit (c.toNat / 16), hexDigit (c.toNat % 16)]
  else [c]

/-- A text in quotes. -/
def quoted (s : String) : List Char := '"' :: s.toList.flatMap escaped ++ ['"']

/-- The start of a line that is `depth` levels deep. -/
def newLine (depth : Nat) : List Char := '\n' :: List.replicate (2 * depth) ' '

/-- What stands in front of an item: a comma unless it is the first, and a new line. -/
def separator (first : Bool) (depth : Nat) : List Char :=
  if first then newLine depth else ',' :: newLine depth

/-- A bracket around items, which are `depth` levels less deep than they are written. -/
def bracketed (left right : Char) (depth : Nat) (isEmpty : Bool) (items : List Char) : List Char :=
  if isEmpty then [left, right] else left :: items ++ newLine depth ++ [right]

mutual

/-- The text of a value that stands `depth` levels deep. -/
def Value.print (depth : Nat) : Value → List Char
  | .bool true => "true".toList
  | .bool false => "false".toList
  | .text s => quoted s
  | .list items => bracketed '[' ']' depth items.isEmpty (printItems (depth + 1) true items)
  | .record fields =>
    bracketed '{' '}' depth fields.isEmpty (printFields (depth + 1) true fields)
termination_by structural v => v

/-- The text of items, each on its line. -/
def printItems (depth : Nat) (first : Bool) : List Value → List Char
  | [] => []
  | v :: rest => separator first depth ++ v.print depth ++ printItems depth false rest
termination_by structural vs => vs

/-- The text of fields, each on its line. -/
def printFields (depth : Nat) (first : Bool) : List (String × Value) → List Char
  | [] => []
  | (key, v) :: rest =>
    separator first depth ++ quoted key ++ ": ".toList ++ v.print depth ++
      printFields depth false rest
termination_by structural fs => fs

end

/-- The text of a value. -/
def Value.pretty (v : Value) : List Char := v.print 0

end RouteStubs.Json
