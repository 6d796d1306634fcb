import RouteStubs.Text.Shown
/-!
Texts in double quotes, as messages show them.

A quote, a backslash and the common control characters have a short escape; any other character that
cannot be shown on its own is written by its code.
-/

namespace RouteStubs.Text

/-- A character within quotes. -/
def escaped (c : Char) : List Char :=
  if c = '\x00' then ['\\', '0']
  else if c = '\t' then ['\\', 't']
  else if c = '\r' then ['\\', 'r']
  else if c = '\n' then ['\\', 'n']
  else if c = '"' then ['\\', '"']
  else if c = '\\' then ['\\', '\\']
  else if isShown c then [c]
  else ['\\', 'u', '{'] ++ Nat.toDigits 16 c.toNat ++ ['}']

/-- A text in quotes. -/
def quoted (s : List Char) : List Char := '"' :: s.flatMap escaped ++ ['"']

end RouteStubs.Text
