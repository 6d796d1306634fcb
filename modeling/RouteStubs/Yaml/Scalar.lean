import RouteStubs.Yaml.Value
import RouteStubs.Text.Space
/-!
What a plain scalar stands for.

In this order: nothing, a boolean, a whole number, a number with a fraction, and else the text itself. A
decimal of more than one digit that starts with zero is text. A whole number of more than 64 bits is
refused, unless it has more than 128: then it is read with a fraction if it is decimal.
-/

namespace RouteStubs.Yaml

/-! ## §1 Numbers -/

/-- The value of a digit in a radix of at most sixteen. -/
def radixDigit? (radix : Nat) (c : Char) : Option Nat :=
  let value :=
    if '0' ≤ c && c ≤ '9' then c.toNat - 48
    else if 'A' ≤ c && c ≤ 'F' then c.toNat - 55
    else if 'a' ≤ c && c ≤ 'f' then c.toNat - 87
    else 16
  if value < radix then some value else none

/-- The value of digits in a radix, from a value that is already read. -/
def radixValue? (radix : Nat) : Nat → List Char → Option Nat
  | n, [] => some n
  | n, c :: rest => (radixDigit? radix c).bind fun digit => radixValue? radix (radix * n + digit) rest

/-- The value of one or more digits in a radix. -/
def wholeNumber? (radix : Nat) (digits : List Char) : Option Nat :=
  if digits.isEmpty then none else radixValue? radix 0 digits

/-- Splits a sign off. -/
def splitSign : List Char → Bool × List Char
  | '-' :: rest => (true, rest)
  | '+' :: rest => (false, rest)
  | s => (false, s)

/-- Digits only, the first of several being zero. -/
def hasLeadingZero (s : List Char) : Bool :=
  let digits := (splitSign s).2
  2 ≤ digits.length && digits.head? = some '0' && digits.all Text.isDigit

/-- A sign and a magnitude in hexadecimal, octal, binary or decimal. -/
def integer? (s : List Char) : Option (Bool × Nat) :=
  let (negative, digits) := splitSign s
  let magnitude :=
    match digits with
    | '0' :: 'x' :: rest => wholeNumber? 16 rest
    | '0' :: 'o' :: rest => wholeNumber? 8 rest
    | '0' :: 'b' :: rest => wholeNumber? 2 rest
    | _ => if hasLeadingZero s then none else wholeNumber? 10 digits
  magnitude.map (negative, ·)

/-- The digits before and after the point, and the exponent, of a decimal without sign. There is at
least one digit, and at least one in an exponent. -/
def decimalParts? (s : List Char) : Option (List Char × List Char × Int) :=
  let whole := s.takeWhile Text.isDigit
  let rest := s.dropWhile Text.isDigit
  let (fraction, rest) := match rest with
    | '.' :: rest => (rest.takeWhile Text.isDigit, rest.dropWhile Text.isDigit)
    | _ => ([], rest)
  if whole.isEmpty && fraction.isEmpty then none
  else
    match rest with
    | [] => some (whole, fraction, 0)
    | c :: rest =>
      if c = 'e' || c = 'E' then
        let (negative, digits) := splitSign rest
        (wholeNumber? 10 digits).map fun n => (whole, fraction, if negative then -(n : Int) else n)
      else none

/-- The finite floating point number that a decimal is nearest to. -/
def decimal? (negative : Bool) (s : List Char) : Option Binary64 := do
  let (whole, fraction, exponent) ← decimalParts? s
  let digits ← radixValue? 10 0 (whole ++ fraction)
  let x := Binary64.ofDecimal negative digits (exponent - fraction.length)
  if x.isFinite then some x else none

/-- A number with a fraction, infinity, or what is not a number. -/
def real? (s : List Char) : Option Binary64 :=
  let (negative, rest) := splitSign s
  if rest = ".inf".toList || rest = ".Inf".toList || rest = ".INF".toList then
    some (.infinite negative)
  else if s = ".nan".toList || s = ".NaN".toList || s = ".NAN".toList then some .nan
  else decimal? negative rest

/-! ## §2 Resolution -/

/-- A boolean. -/
def boolean? (s : List Char) : Option Bool :=
  if s = "true".toList || s = "True".toList || s = "TRUE".toList then some true
  else if s = "false".toList || s = "False".toList || s = "FALSE".toList then some false
  else none

/-- One of the words for nothing. -/
def isNull (s : List Char) : Bool :=
  s = "null".toList || s = "Null".toList || s = "NULL".toList || s = ['~']

/-- The type that a tag demands of a scalar. -/
inductive ScalarType where
  | boolean
  | integer
  | real
  | null
  deriving DecidableEq, Repr

/-- The name of a type, with its article where it has one. -/
def ScalarType.name : ScalarType → String
  | .boolean => "a boolean"
  | .integer => "an integer"
  | .real => "a float"
  | .null => "null"

/-- What is wrong with a value. -/
inductive ValueProblem where
  | wideInteger (negative : Bool) (magnitude : Nat)
  | mismatch (found : List Char) (wanted : ScalarType)
  | duplicateKey (key : Value)

/-- The whole number that a text writes, if it writes one that can be told apart from others. -/
def wholeValue? (s : List Char) : Option (Except ValueProblem Value) :=
  match integer? s with
  | none => none
  | some (false, n) =>
    if n < Nat.pow 2 64 then some (.ok (.number (.integer n)))
    else if n < Nat.pow 2 128 then some (.error (.wideInteger false n))
    else none
  | some (true, n) =>
    if n ≤ Nat.pow 2 63 then some (.ok (.number (.integer (-n))))
    else if n ≤ Nat.pow 2 127 then some (.error (.wideInteger true n))
    else none

/-- The value of a plain scalar. -/
def plainValue (s : List Char) : Except ValueProblem Value :=
  if s.isEmpty || isNull s then .ok .null
  else
    match boolean? s with
    | some b => .ok (.bool b)
    | none =>
      match wholeValue? s with
      | some result => result
      | none =>
        match if hasLeadingZero s then none else real? s with
        | some x => .ok (.number (.real x))
        | none => .ok (.text (String.ofList s))

/-- The value of a scalar whose tag demands a type. -/
def typedValue (wanted : ScalarType) (s : List Char) : Except ValueProblem Value :=
  let found : Option (Except ValueProblem Value) := match wanted with
    | .boolean => (boolean? s).map fun b => .ok (.bool b)
    | .integer => wholeValue? s
    | .real => (real? s).map fun x => .ok (.number (.real x))
    | .null => if isNull s then some (.ok .null) else none
  found.getD (.error (.mismatch s wanted))

/-- The words for a problem with a value. -/
def ValueProblem.message : ValueProblem → List Char
  | .wideInteger negative n =>
    "invalid type: integer \x60".toList ++ signed negative (decimalDigits n) ++
      (if negative then "\x60 as i128".toList else "\x60 as u128".toList) ++
      ", expected any YAML value".toList
  | .mismatch found wanted =>
    "invalid value: string ".toList ++ Text.quoted found ++ ", expected ".toList ++
      wanted.name.toList
  | .duplicateKey key =>
    "duplicate entry ".toList ++
      match key with
      | .null => "with null key".toList
      | .bool b => "with key \x60".toList ++ (toString b).toList ++ ['\x60']
      | .number n => "with key ".toList ++ n.text
      | .text s => "with key ".toList ++ Text.quoted s.toList
      | .sequence _ | .mapping _ | .tagged .. => "in YAML map".toList

end RouteStubs.Yaml
