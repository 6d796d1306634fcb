import RouteStubs.Text.Space
/-!
Letter case, as far as ASCII letters come out of it.

Names and keywords here are ASCII. So of the full case mappings only those are needed that give an ASCII
letter: besides the ASCII letters themselves, the Kelvin sign and the dotted capital I are lower-cased to
one, and the dotless i and the long s are upper-cased to one. Every other character stays outside ASCII
in either case and is passed on as it is.
-/

namespace RouteStubs.Text

/-- An ASCII capital as its small letter, and any other character as it is. -/
def asciiLower (c : Char) : Char := if 'A' ≤ c && c ≤ 'Z' then Char.ofNat (c.toNat + 32) else c

/-- The lower-case form of a character. -/
def lower (c : Char) : List Char :=
  if c = '\u212a' then ['k'] else if c = '\u0130' then ['i', '\u0307'] else [asciiLower c]

/-- The lower-case form of a text. -/
def lowercase (s : List Char) : List Char := s.flatMap lower

/-- The upper-case form of a character where it is a single character. -/
def upper (c : Char) : Char :=
  if 'a' ≤ c && c ≤ 'z' then Char.ofNat (c.toNat - 32)
  else if c = '\u0131' then 'I'
  else if c = '\u017f' then 'S'
  else c

end RouteStubs.Text
