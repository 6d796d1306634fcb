import RouteStubs.Number.Binary64
import RouteStubs.Text.Quoted
/-!
The values that a document writes.

Mappings keep the order of their entries. `Value.same` is the equality by which a key is a duplicate of
another: integers differ from floating point numbers, mappings are compared without regard to order, and
`.nan` equals itself.
-/

namespace RouteStubs.Yaml

/-- A number, as it was written: whole or with a fraction. -/
inductive Number where
  | integer (n : Int)
  | real (x : Binary64)
  deriving DecidableEq, Repr

namespace Number

/-- Equality of numbers of the same kind. -/
def same : Number → Number → Bool
  | .integer a, .integer b => a == b
  | .real a, .real b => a.equal b
  | _, _ => false

/-- The text of a number. -/
def text : Number → List Char
  | .integer n => signed (n < 0) (decimalDigits n.natAbs)
  | .real x => x.documentText

end Number

/-- A value of a document. -/
inductive Value where
  | null
  | bool (b : Bool)
  | number (n : Number)
  | text (s : String)
  | sequence (items : List Value)
  | mapping (entries : List (Value × Value))
  | tagged (tag : String) (value : Value)
  deriving Repr, Inhabited

namespace Value

/-! ## §1 Equality -/

mutual

/-- Equality of values; the entries of a mapping may stand in any order. -/
def same : Value → Value → Bool
  | .null, .null => true
  | .bool a, .bool b => a == b
  | .number a, .number b => a.same b
  | .text a, .text b => a == b
  | .sequence a, .sequence b => sameItems a b
  | .mapping a, .mapping b => a.length == b.length && entriesWithin a b
  | .tagged s a, .tagged t b => s == t && same a b
  | _, _ => false
termination_by structural v => v

/-- Equality of lists of values, one by one. -/
def sameItems : List Value → List Value → Bool
  | [], [] => true
  | a :: as, b :: bs => same a b && sameItems as bs
  | _, _ => false
termination_by structural v => v

/-- Every entry of the first list is one of the second. -/
def entriesWithin : List (Value × Value) → List (Value × Value) → Bool
  | [], _ => true
  | (k, v) :: rest, entries =>
    (entries.any fun entry => same k entry.1 && same v entry.2) && entriesWithin rest entries
termination_by structural v => v

end

/-! ## §2 Access -/

/-- The value behind any tags. -/
def untagged : Value → Value
  | .tagged _ v => v.untagged
  | v => v

/-- The text that a value is, behind any tags. -/
def text? (v : Value) : Option String :=
  match v.untagged with
  | .text s => some s
  | _ => none

/-- The value under a key that is exactly this text. -/
def lookup (key : String) : List (Value × Value) → Option Value
  | [] => none
  | (.text k, v) :: rest => if k = key then some v else lookup key rest
  | _ :: rest => lookup key rest

/-! ## §3 Inspection -/

mutual

/-- The form of a value in a message: its kind, and within that its parts. -/
def inspect : Value → List Char
  | .null => "Null".toList
  | .bool b => "Bool(".toList ++ (toString b).toList ++ [')']
  | .number n => "Number(".toList ++ n.text ++ [')']
  | .text s => "String(".toList ++ Text.quoted s.toList ++ [')']
  | .sequence items => "Sequence [".toList ++ inspectItems items ++ [']']
  | .mapping entries => "Mapping \x7b".toList ++ inspectEntries entries ++ ['}']
  | .tagged tag v =>
    "TaggedValue \x7b tag: !".toList ++ tag.toList ++ ", value: ".toList ++ inspect v ++ " \x7d".toList
termination_by structural v => v

/-- The forms of values, separated by commas. -/
def inspectItems : List Value → List Char
  | [] => []
  | [v] => inspect v
  | v :: rest => inspect v ++ ", ".toList ++ inspectItems rest
termination_by structural v => v

/-- The forms of entries, separated by commas. Keys that are texts, numbers or booleans stand bare. -/
def inspectEntries : List (Value × Value) → List Char
  | [] => []
  | (k, v) :: rest =>
    let key := match k with
      | .bool b => (toString b).toList
      | .number n => n.text
      | .text s => Text.quoted s.toList
      | other => inspect other
    key ++ ": ".toList ++ inspect v ++
      (if rest.isEmpty then [] else ", ".toList ++ inspectEntries rest)
termination_by structural v => v

end

/-- What a value is, in words. -/
def describe : Value → List Char
  | .null => "unit value".toList
  | .bool b => "boolean \x60".toList ++ (toString b).toList ++ ['\x60']
  | .number (.integer n) => "integer \x60".toList ++ (Number.integer n).text ++ ['\x60']
  | .number (.real x) => "floating point \x60".toList ++ x.messageText ++ ['\x60']
  | .text s => "string ".toList ++ Text.quoted s.toList
  | .sequence _ => "sequence".toList
  | .mapping _ => "map".toList
  | .tagged .. => "enum".toList

end Value

end RouteStubs.Yaml
