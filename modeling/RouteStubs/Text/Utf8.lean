/-!
Byte offsets in a text.

Spans of a document are ranges of bytes of its UTF-8 form. A text is searched as a `List Char`, and
an offset is the sum of the sizes of the characters before it, so it always lies between characters.
-/

namespace RouteStubs.Text

/-- The number of bytes that the text takes in UTF-8. -/
def byteLength : List Char → Nat
  | [] => 0
  | c :: rest => c.utf8Size + byteLength rest

@[simp] theorem byteLength_nil : byteLength [] = 0 := rfl

@[simp] theorem byteLength_cons (c : Char) (rest : List Char) :
    byteLength (c :: rest) = c.utf8Size + byteLength rest := rfl

@[simp] theorem byteLength_append (s t : List Char) :
    byteLength (s ++ t) = byteLength s + byteLength t := by
  induction s with
  | nil => simp
  | cons c rest ih => simp [ih, Nat.add_assoc]

/-- The text after `start`, if the text starts with it. -/
def dropStart? : List Char → List Char → Option (List Char)
  | [], text => some text
  | _ :: _, [] => none
  | c :: start, d :: text => if c = d then dropStart? start text else none

/-- The text before and after the first occurrence of `needle`. -/
def splitAtFirst? (needle : List Char) : List Char → Option (List Char × List Char)
  | [] => (dropStart? needle []).map ([], ·)
  | c :: text =>
    match dropStart? needle (c :: text) with
    | some rest => some ([], rest)
    | none => (splitAtFirst? needle text).map fun (before, rest) => (c :: before, rest)

end RouteStubs.Text
