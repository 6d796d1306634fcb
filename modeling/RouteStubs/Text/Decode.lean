/-!
Bytes that should be UTF-8, as text.

Where bytes are no character, each longest start of a character, or else a single byte, is replaced by the
replacement character.
-/

namespace RouteStubs.Text

/-- The range of the second byte of a character with this first byte, and how many bytes follow the
first. -/
def continuation? (lead : Nat) : Option (Nat × Nat × Nat) :=
  if 0xC2 ≤ lead && lead ≤ 0xDF then some (0x80, 0xBF, 1)
  else if lead = 0xE0 then some (0xA0, 0xBF, 2)
  else if lead = 0xED then some (0x80, 0x9F, 2)
  else if 0xE1 ≤ lead && lead ≤ 0xEF then some (0x80, 0xBF, 2)
  else if lead = 0xF0 then some (0x90, 0xBF, 3)
  else if 0xF1 ≤ lead && lead ≤ 0xF3 then some (0x80, 0xBF, 3)
  else if lead = 0xF4 then some (0x80, 0x8F, 3)
  else none

/-- Decodes bytes. `code` is the start of an open character, of which `left` bytes are still to come, the
next one between `low` and `high`. -/
def decodeFrom (code left low high : Nat) : List UInt8 → List Char
  | [] => if left = 0 then [] else ['\ufffd']
  | byte :: rest =>
    let b := byte.toNat
    let fresh : List Char :=
      if b < 0x80 then Char.ofNat b :: decodeFrom 0 0 0 0 rest
      else
        match continuation? b with
        | some (low, high, n) =>
          decodeFrom (b % (if n = 1 then 32 else if n = 2 then 16 else 8)) n low high rest
        | none => '\ufffd' :: decodeFrom 0 0 0 0 rest
    if left = 0 then fresh
    else if low ≤ b && b ≤ high then
      let code := 64 * code + b % 64
      if left = 1 then Char.ofNat code :: decodeFrom 0 0 0 0 rest
      else decodeFrom code (left - 1) 0x80 0xBF rest
    else '\ufffd' :: fresh

/-- The text that bytes write. -/
def decode (bytes : ByteArray) : List Char := decodeFrom 0 0 0 0 bytes.toList

end RouteStubs.Text
