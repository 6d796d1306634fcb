/-!
Floating point numbers of 64 bits, exactly.

A finite number is `± mantissa · 2 ^ exponent` with a mantissa below `2 ^ 53` and an exponent from
`-1074`, the mantissa being at least `2 ^ 52` wherever the exponent is greater than that. Reading rounds
a decimal to the nearest such number, to the even mantissa on a tie. Printing takes the fewest digits
that are read back as the same number, and of those the nearest.
-/

namespace RouteStubs

/-- A floating point number of 64 bits. -/
inductive Binary64 where
  | nan
  | infinite (negative : Bool)
  | finite (negative : Bool) (mantissa : Nat) (exponent : Int)
  deriving DecidableEq, Repr

namespace Binary64

/-- Zero with a sign. -/
def zero (negative : Bool) : Binary64 := .finite negative 0 (-1074)

/-- Neither infinite nor not a number. -/
def isFinite : Binary64 → Bool
  | .finite .. => true
  | _ => false

/-- Equality as numbers are compared, save that what is not a number equals itself: the two zeros are
equal. -/
def equal : Binary64 → Binary64 → Bool
  | .finite _ 0 _, .finite _ 0 _ => true
  | a, b => a == b

/-! ## §1 Reading decimals -/

/-- `2 ^ n` for `n ≥ 0`, and one otherwise. -/
def pow2 (n : Int) : Nat := Nat.pow 2 n.toNat

/-- The number nearest to `num / den · 2 ^ exponent`, the even one of two. -/
def roundTo (num den : Nat) (exponent : Int) : Nat :=
  let n := num * pow2 (-exponent)
  let d := den * pow2 exponent
  let q := n / d
  let r := n % d
  if 2 * r < d then q else if d < 2 * r then q + 1 else if q % 2 = 0 then q else q + 1

/-- The floating point number nearest to `num / den`; infinite from the middle between the greatest one
and the next power of two on. -/
def ofRatio (negative : Bool) (num den : Nat) : Binary64 :=
  if num = 0 then zero negative
  else
    let guess : Int := (num.log2 : Int) - (den.log2 : Int) - 52
    -- `num / den` lies between `2 ^ (guess + 51)` and `2 ^ (guess + 53)`
    let below := decide (num * pow2 (-(guess + 52)) < den * pow2 (guess + 52))
    let exponent := max (if below then guess - 1 else guess) (-1074)
    let mantissa := roundTo num den exponent
    let (mantissa, exponent) :=
      if mantissa = Nat.pow 2 53 then (Nat.pow 2 52, exponent + 1) else (mantissa, exponent)
    if 971 < exponent then .infinite negative else .finite negative mantissa exponent

/-- The number of decimal digits. -/
def digitCount (n : Nat) : Nat := (Nat.toDigits 10 n).length

/-- The floating point number nearest to `± digits · 10 ^ exponent`. Beyond the range of the format the
answer is known without computing the power. -/
def ofDecimal (negative : Bool) (digits : Nat) (exponent : Int) : Binary64 :=
  if digits = 0 then zero negative
  else
    let magnitude := exponent + (digitCount digits : Int)
    if 310 < magnitude then .infinite negative
    else if magnitude < -330 then zero negative
    else if 0 ≤ exponent then ofRatio negative (digits * Nat.pow 10 exponent.toNat) 1
    else ofRatio negative digits (Nat.pow 10 (-exponent).toNat)

/-! ## §2 The fewest digits -/

/-- A decimal: `digits · 10 ^ exponent`. -/
structure Decimal where
  digits : Nat
  exponent : Int
  deriving DecidableEq, Repr

/-- The numbers that are read as `m · 2 ^ e` lie between `low / den` and `high / den`, the number itself
being `mid / den`. -/
structure Interval where
  low : Nat
  mid : Nat
  high : Nat
  den : Nat
  /-- The ends are read as the number as well. -/
  closed : Bool

/-- The interval of `m · 2 ^ e`. Below a power of two the next number is half as far away. -/
def interval (m : Nat) (e : Int) : Interval :=
  let scale := pow2 (e - 2)
  let den := pow2 (2 - e)
  let low := if m = Nat.pow 2 52 && -1074 < e then 4 * m - 1 else 4 * m - 2
  ⟨low * scale, 4 * m * scale, (4 * m + 2) * scale, den, m % 2 = 0⟩

/-- `n / den` lies in the interval. -/
def Interval.contains (i : Interval) (num den : Nat) : Bool :=
  if i.closed then decide (i.low * den ≤ num * i.den) && decide (num * i.den ≤ i.high * den)
  else decide (i.low * den < num * i.den) && decide (num * i.den < i.high * den)

/-- Of the two multiples of `10 ^ exponent` around the number, the nearer one that lies in the interval;
the even one of two equally near. -/
def Interval.onGrid? (i : Interval) (exponent : Int) : Option Decimal :=
  let up := Nat.pow 10 exponent.toNat
  let down := Nat.pow 10 (-exponent).toNat
  let unit := i.den * up
  let floor := i.mid * down / unit
  let rest := i.mid * down % unit
  let floorIn := i.contains (floor * up) down
  let ceilIn := i.contains ((floor + 1) * up) down
  let nearer :=
    if 2 * rest < unit then floor else if unit < 2 * rest then floor + 1
    else if floor % 2 = 0 then floor else floor + 1
  if floorIn && ceilIn then some ⟨nearer, exponent⟩
  else if floorIn then some ⟨floor, exponent⟩
  else if ceilIn then some ⟨floor + 1, exponent⟩
  else none

/-- The first grid with a hit, from that of one digit on; `top` is the exponent of ten just above the
number, and `left` digits may still be tried. -/
def Interval.firstHit (i : Interval) (top : Int) : Nat → Nat → Decimal
  | 0, _ => ⟨0, 0⟩
  | left + 1, digits =>
    match i.onGrid? (top - digits) with
    | some d => d
    | none => firstHit i top left (digits + 1)

/-- The exponent `k` with `10 ^ (k - 1) ≤ num / den < 10 ^ k`. -/
def decimalTop (num den : Nat) : Int :=
  if den ≤ num then (digitCount (num / den) : Int)
  else
    let lead := digitCount (den / num) - 1
    -- `10 ^ lead ≤ den / num < 10 ^ (lead + 1)`
    if num * Nat.pow 10 lead = den then 1 - (lead : Int) else -(lead : Int)

/-- Drops the zeros at the end of the digits, at most as many as `fuel` says. -/
def Decimal.trim : Nat → Decimal → Decimal
  | 0, d => d
  | fuel + 1, d =>
    if d.digits != 0 && d.digits % 10 = 0 then trim fuel ⟨d.digits / 10, d.exponent + 1⟩ else d

/-- The fewest digits that are read back as `m · 2 ^ e`; seventeen always are. -/
def shortest (m : Nat) (e : Int) : Decimal :=
  if m = 0 then ⟨0, 0⟩
  else
    let i := interval m e
    (i.firstHit (decimalTop i.mid i.den) 17 1).trim 17

end Binary64

/-! ## §3 Layouts -/

/-- The decimal digits of a number. -/
def decimalDigits (n : Nat) : List Char := Nat.toDigits 10 n

/-- Digits with the point after the first `point` of them, filled with zeros where it lies outside: no
point and nothing after it if it would be last. -/
def positional (digits : List Char) (point : Int) : List Char :=
  if point ≤ 0 then '0' :: '.' :: List.replicate (-point).toNat '0' ++ digits
  else if (digits.length : Int) ≤ point then
    digits ++ List.replicate (point.toNat - digits.length) '0'
  else digits.take point.toNat ++ '.' :: digits.drop point.toNat

/-- A sign in front of a negative number. -/
def signed (negative : Bool) (text : List Char) : List Char :=
  if negative then '-' :: text else text

namespace Binary64

/-- The text of a number in a document: positional from `0.00001` to below `10 ^ 16`, with `.0` behind
a whole number, and otherwise with an exponent. -/
def documentText : Binary64 → List Char
  | .nan => ".nan".toList
  | .infinite negative => signed negative ".inf".toList
  | .finite negative m e =>
    if m = 0 then signed negative "0.0".toList
    else
      let d := shortest m e
      let digits := decimalDigits d.digits
      let point := d.exponent + (digits.length : Int)
      signed negative <|
        if -5 < point && point ≤ 16 then
          let text := positional digits point
          if (digits.length : Int) ≤ point then text ++ ['.', '0'] else text
        else
          let tail := digits.drop 1
          let power := point - 1
          digits.take 1 ++ (if tail.isEmpty then [] else '.' :: tail) ++
            'e' :: signed (power < 0) (decimalDigits power.natAbs)

/-- The text of a number in a message: always positional, with `.0` behind a whole number. -/
def messageText : Binary64 → List Char
  | .nan => "NaN".toList
  | .infinite negative => signed negative "inf".toList
  | .finite negative m e =>
    if m = 0 then signed negative "0.0".toList
    else
      let d := shortest m e
      let digits := decimalDigits d.digits
      let point := d.exponent + (digits.length : Int)
      let text := positional digits point
      signed negative (if (digits.length : Int) ≤ point then text ++ ['.', '0'] else text)

end Binary64

end RouteStubs
