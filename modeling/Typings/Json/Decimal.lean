/-! # Shortest decimals

A number with a fraction or an exponent is held as a double, and shown by the fewest digits that
read back as that double.

* `Magnitude`: a positive double as a whole number times a power of two, with the interval of reals
  that round to it.
* `shortestDigits`: the fewest digits in that interval, the nearer ones where two fit.
* `showDecimal`: the digits with point and exponent: positional below sixteen digits before the
  point and five zeros behind it.
* `decimalText?`: the shown form of a number read from its digits; none when it is too large.
-/

namespace Typings.Json

/-- A positive double: four times its value is `centre · 2 ^ exponent`, and the reals that round to
    it lie between `low` and `high` in the same unit, the ends included when `closed`. -/
structure Magnitude where
  low : Nat
  centre : Nat
  high : Nat
  exponent : Int
  closed : Bool

/-- The magnitude of a positive finite double, from its bits. -/
def Magnitude.ofBits (bits : Nat) : Magnitude :=
  let fraction : Nat := bits % Nat.pow 2 52
  let exponent : Nat := bits / Nat.pow 2 52 % Nat.pow 2 11
  let m : Nat := if exponent = 0 then fraction else fraction + Nat.pow 2 52
  let q : Int := (if exponent = 0 then 1 else (exponent : Int)) - 1075
  let low := if fraction = 0 && 1 < exponent then 4 * m - 1 else 4 * m - 2
  ⟨low, 4 * m, 4 * m + 2, q - 2, m % 2 == 0⟩

/-- Numerator and denominator of `n · 2 ^ two / 10 ^ ten`. -/
def scaled (n : Nat) (two ten : Int) : Nat × Nat :=
  (n * Nat.pow 2 two.toNat * Nat.pow 10 (-ten).toNat,
    Nat.pow 2 (-two).toNat * Nat.pow 10 ten.toNat)

/-- The power of ten of the first digit of a positive fraction; `bound` limits the search below
    one. -/
def leadingPower (bound num den : Nat) : Int :=
  if den ≤ num then ((Nat.toDigits 10 (num / den)).length : Int) - 1
  else
    match bound with
    | 0 => 0
    | bound + 1 => leadingPower bound (num * 10) den - 1

/-- Whether `digits · 10 ^ ten` rounds to the magnitude. -/
def Magnitude.covers (x : Magnitude) (digits : Nat) (ten : Int) : Bool :=
  let (low, den) := scaled x.low x.exponent ten
  let (high, _) := scaled x.high x.exponent ten
  let d := digits * den
  if x.closed then low ≤ d && d ≤ high else low < d && d < high

/-- The one of the two neighbours of the magnitude on the grid `10 ^ ten` that rounds to it, the
    nearer one if both do. -/
def Magnitude.onGrid? (x : Magnitude) (ten : Int) : Option Nat :=
  let (num, den) := scaled x.centre x.exponent ten
  let below := num / den
  let nearerBelow := 2 * (num % den) < den || (2 * (num % den) == den && below % 2 == 0)
  match x.covers below ten, x.covers (below + 1) ten with
  | true, true => some (if nearerBelow then below else below + 1)
  | true, false => some below
  | false, true => some (below + 1)
  | false, false => none

/-- The digits of the magnitude on the first grid that has some, from `count` digits on, with the
    power of ten of the last one. -/
def Magnitude.search (x : Magnitude) (lead : Int) : Nat → Nat → Nat × Int
  | 0, _ => (0, 0)
  | left + 1, count =>
    match x.onGrid? (lead - count + 1) with
    | some digits => (digits, lead - count + 1)
    | none => x.search lead left (count + 1)

/-- A whole number without its trailing zeros, the power of ten raised for each; `bound` limits
    their number. -/
def stripZeros : Nat → Nat × Int → Nat × Int
  | 0, x => x
  | bound + 1, (digits, ten) =>
    if digits ≠ 0 && digits % 10 = 0 then stripZeros bound (digits / 10, ten + 1) else (digits, ten)

/-- The fewest digits that read back as the magnitude, with the power of ten of the last one. -/
def shortestDigits (x : Magnitude) : Nat × Int :=
  let (num, den) := scaled x.centre x.exponent 0
  stripZeros 20 (x.search (leadingPower 400 num den) 18 1)

/-- Digits with point and exponent. The digits end at the power of ten `ten`. -/
def showDecimal (digits : List Char) (ten : Int) : List Char :=
  let point := digits.length + ten
  if 0 ≤ ten && point ≤ 16 then digits ++ List.replicate ten.toNat '0' ++ ['.', '0']
  else if 0 < point && point ≤ 16 then
    digits.take point.toNat ++ '.' :: digits.drop point.toNat
  else if -5 < point && point ≤ 0 then '0' :: '.' :: List.replicate (-point).toNat '0' ++ digits
  else
    match digits with
    | [] => []
    | [d] => d :: 'e' :: (toString (point - 1)).toList
    | d :: ds => d :: '.' :: ds ++ 'e' :: (toString (point - 1)).toList

def showDouble (negative : Bool) (x : Float) : String :=
  let sign := if negative then ['-'] else []
  if x == 0 then .ofList (sign ++ "0.0".toList)
  else
    let (digits, ten) := shortestDigits (.ofBits (x.toBits.toNat % Nat.pow 2 63))
    .ofList (sign ++ showDecimal (Nat.toDigits 10 digits) ten)

/-- The double `x · 10 ^ ten`, scaled by the powers of ten that are doubles; `bound` limits the
    number of steps below the smallest of them. -/
def scaleByTen? : Nat → Float → Int → Option Float
  | bound, x, ten =>
    if ten.natAbs ≤ 308 then
      let power := Float.ofScientific 1 false ten.natAbs
      if 0 ≤ ten then
        if (x * power).isInf then none else some (x * power)
      else some (x / power)
    else if x == 0 then some x
    else if 0 ≤ ten then none
    else
      match bound with
      | 0 => some 0
      | bound + 1 => scaleByTen? bound (x / Float.ofScientific 1 false 308) (ten + 308)

/-- The shown form of `digits · 10 ^ ten`; none when the number is too large for a double. -/
def decimalText? (negative : Bool) (digits : Nat) (ten : Int) : Option String :=
  (scaleByTen? 8 (Float.ofNat digits) ten).map (showDouble negative)

end Typings.Json
