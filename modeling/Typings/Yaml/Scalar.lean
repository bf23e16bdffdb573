/-! # Bare scalars

What a scalar without quotes stands for. A text that would stand for something else has to be
quoted.

* `nullWord`, `boolWord?`, `integerOf?`, `isFloat`: the forms of null, truth values, integers and
  numbers with a fraction.
* `looksNumeric`: a zero followed by digits is a text, but one that is quoted when it is written.
* `isBareText`: whether a text may stand without quotes as far as its form goes.
-/

namespace Typings.Yaml

def nullWord (s : String) : Bool :=
  s == "null" || s == "Null" || s == "NULL" || s == "~"

def boolWord? (s : String) : Option Bool :=
  if s == "true" || s == "True" || s == "TRUE" then some true
  else if s == "false" || s == "False" || s == "FALSE" then some false
  else none

def isDigit (c : Char) : Bool :=
  '0' ≤ c && c ≤ '9'

/-- The value of a digit in a base up to 16. -/
def digitValue? (base : Nat) (c : Char) : Option Nat :=
  let value? :=
    if isDigit c then some (c.toNat - 0x30)
    else if 'a' ≤ c && c ≤ 'f' then some (c.toNat - 0x57)
    else if 'A' ≤ c && c ≤ 'F' then some (c.toNat - 0x37)
    else none
  value?.filter (· < base)

def digitsFrom? (base value : Nat) : List Char → Option Nat
  | [] => some value
  | c :: cs => do
    let d ← digitValue? base c
    digitsFrom? base (base * value + d) cs

def digits? (base : Nat) (cs : List Char) : Option Nat :=
  if cs.isEmpty then none else digitsFrom? base 0 cs

def magnitude? (cs : List Char) : Option Nat :=
  match cs with
  | '0' :: 'x' :: cs => digits? 16 cs
  | '0' :: 'o' :: cs => digits? 8 cs
  | '0' :: 'b' :: cs => digits? 2 cs
  | cs => digits? 10 cs

def unsigned : List Char → List Char
  | '+' :: cs => cs
  | '-' :: cs => cs
  | cs => cs

def looksNumeric (cs : List Char) : Bool :=
  match unsigned cs with
  | '0' :: c :: cs => (c :: cs).all isDigit
  | _ => false

/-- The integer of at most 128 bits that the text stands for. -/
def integerOf? (cs : List Char) : Option Int :=
  if looksNumeric cs then none
  else
    match cs with
    | '-' :: rest => ((magnitude? rest).filter (· ≤ Nat.pow 2 127)).map fun n => -(n : Int)
    | '+' :: rest => ((magnitude? rest).filter (· < Nat.pow 2 128)).map fun n => (n : Int)
    | cs => ((magnitude? cs).filter (· < Nat.pow 2 128)).map fun n => (n : Int)

/-- The exponent that a text ends with: none when the text is no exponent. -/
def exponent? (cs : List Char) : Option Int :=
  match cs with
  | [] => some 0
  | c :: cs =>
    if c = 'e' ∨ c = 'E' then
      match cs with
      | '-' :: cs => (digits? 10 cs).map fun n => -(n : Int)
      | '+' :: cs => (digits? 10 cs).map fun n => (n : Int)
      | cs => (digits? 10 cs).map fun n => (n : Int)
    else none

def wholeValue (cs : List Char) : Nat :=
  (digitsFrom? 10 0 cs).getD 0

/-- Whether `n · 10 ^ ten` is less than what a double can hold. -/
def fitsDouble (n : Nat) (ten : Int) : Bool :=
  let size : Int := (Nat.toDigits 10 n).length + ten
  if n = 0 then true
  else if size < 300 then true
  else if 320 < size then false
  else
    let bound := Nat.pow 2 1024 - Nat.pow 2 970
    if 0 ≤ ten then n * Nat.pow 10 ten.toNat < bound else n < bound * Nat.pow 10 (-ten).toNat

/-- Whether the text, without a sign, is a finite decimal number. -/
def isDecimal (cs : List Char) : Bool :=
  let whole := cs.takeWhile isDigit
  let (fraction, rest) :=
    match cs.dropWhile isDigit with
    | '.' :: rest => (rest.takeWhile isDigit, rest.dropWhile isDigit)
    | rest => ([], rest)
  if whole.isEmpty && fraction.isEmpty then false
  else
    match exponent? rest with
    | some power => fitsDouble (wholeValue (whole ++ fraction)) (power - fraction.length)
    | none => false

/-- Whether the text stands for a number with a fraction, an infinity or no number. -/
def isFloat (s : String) : Bool :=
  let infinity := [".inf", ".Inf", ".INF", "+.inf", "+.Inf", "+.INF", "-.inf", "-.Inf", "-.INF",
    ".nan", ".NaN", ".NAN"]
  infinity.contains s || (!looksNumeric s.toList && isDecimal (unsigned s.toList))

/-- Whether the text, without quotes, still stands for itself. -/
def isBareText (s : String) : Bool :=
  !(s.isEmpty || nullWord s || (boolWord? s).isSome || (integerOf? s.toList).isSome || isFloat s
    || looksNumeric s.toList)

end Typings.Yaml
