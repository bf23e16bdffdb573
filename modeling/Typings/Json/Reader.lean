import Typings.Json.Basic
import Typings.Json.Decimal

/-! # Reading JSON texts

A text is read from left to right into a value that keeps the place where the text goes wrong.

* `readString`: a text between quotes, with the faults of reading and of skipping it told apart: a
  surrogate without its partner spoils the text but not the grammar.
* `readNumber`: a number; one that is too large for a double can be skipped but not read.
* `readValue`: a value, with what follows it unless the text went wrong.
* `Document.ofText`: a whole text.
-/

namespace Typings.Json

/-- Whether `c` may stand between the parts of a JSON text. -/
def isSpace (c : Char) : Bool :=
  c == ' ' || c == '\n' || c == '\t' || c == '\r'

def skipSpace (cs : List Char) : List Char :=
  cs.dropWhile isSpace

/-! ## Texts between quotes -/

def hexValue? (c : Char) : Option Nat :=
  if '0' ≤ c ∧ c ≤ '9' then some (c.toNat - 0x30)
  else if 'a' ≤ c ∧ c ≤ 'f' then some (c.toNat - 0x57)
  else if 'A' ≤ c ∧ c ≤ 'F' then some (c.toNat - 0x37)
  else none

def hexUnit? (a b c d : Char) : Option Nat := do
  return (((← hexValue? a) * 16 + (← hexValue? b)) * 16 + (← hexValue? c)) * 16 + (← hexValue? d)

def escaped? (c : Char) : Option Char :=
  match c with
  | '\x22' => some '\x22'
  | '\\' => some '\\'
  | '/' => some '/'
  | 'b' => some '\x08'
  | 'f' => some '\x0c'
  | 'n' => some '\n'
  | 'r' => some '\r'
  | 't' => some '\t'
  | _ => none

/-- A text in the course of being read: its characters, latest first, or the fault met in them, and
    the high surrogate that still waits for its partner. -/
structure Partial where
  chars : Except Fault (List Char) := .ok []
  high : Option Nat := none

namespace Partial

/-- The characters once no partner can follow any more. -/
def settled (p : Partial) : Except Fault (List Char) :=
  match p.high with
  | some _ => p.chars.bind fun _ => .error .malformed
  | none => p.chars

def push (p : Partial) (c : Char) : Partial :=
  ⟨p.settled.map (c :: ·), none⟩

def pushUnit (p : Partial) (n : Nat) : Partial :=
  if 0xDC00 ≤ n ∧ n ≤ 0xDFFF then
    match p.high with
    | some high =>
      ⟨p.chars.map (Char.ofNat (0x10000 + (high - 0xD800) * 0x400 + (n - 0xDC00)) :: ·), none⟩
    | none => ⟨p.chars.bind fun _ => .error .malformed, none⟩
  else if 0xD800 ≤ n ∧ n ≤ 0xDBFF then ⟨p.settled, some n⟩
  else p.push (Char.ofNat n)

def broken (p : Partial) (f : Fault) : Except Fault String × Except Fault (List Char) :=
  (p.chars.bind fun _ => .error f, .error f)

end Partial

/-- The rest of a text between quotes: the text or the fault of reading it, and what follows it or
    the fault of skipping it. -/
def readString (p : Partial) : List Char → Except Fault String × Except Fault (List Char)
  | [] => p.broken .unfinished
  | '\x22' :: rest => (p.settled.map fun chars => .ofList chars.reverse, .ok rest)
  | '\\' :: 'u' :: a :: b :: c :: d :: rest =>
    match hexUnit? a b c d with
    | some n => readString (p.pushUnit n) rest
    | none => p.broken .malformed
  | '\\' :: 'u' :: few =>
    p.broken (if (String.ofList few).utf8ByteSize < 4 then .unfinished else .malformed)
  | '\\' :: c :: rest =>
    match escaped? c with
    | some c => readString (p.push c) rest
    | none => p.broken .malformed
  | ['\\'] => p.broken .unfinished
  | c :: rest => if c.toNat < 0x20 then p.broken .malformed else readString (p.push c) rest

/-! ## Numbers -/

def isDigit (c : Char) : Bool :=
  '0' ≤ c && c ≤ '9'

def digitsValue (cs : List Char) : Nat :=
  cs.foldl (fun n c => 10 * n + (c.toNat - 0x30)) 0

def maxWord : Nat := Nat.pow 2 64 - 1

/-- Digits before the point, taken up to 64 bits; each further one raises the power of ten. -/
def takeWhole (digits : Nat) (ten : Int) : List Char → Nat × Int
  | [] => (digits, ten)
  | c :: cs =>
    let next := 10 * digits + (c.toNat - 0x30)
    if 0 < ten || maxWord < next then takeWhole digits (ten + 1) cs else takeWhole next ten cs

/-- Digits behind the point, taken up to 64 bits; further ones are dropped. -/
def takeFraction (digits : Nat) (ten : Int) : List Char → Nat × Int
  | [] => (digits, ten)
  | c :: cs =>
    let next := 10 * digits + (c.toNat - 0x30)
    if maxWord < next then (digits, ten) else takeFraction next (ten - 1) cs

def numberOf (negative : Bool) (whole fraction : List Char) (power : Option Int)
    (rest : List Char) : Json × Option (List Char) :=
  let value := digitsValue whole
  let isWhole := fraction.isEmpty && power.isNone
  if isWhole && !negative && value ≤ maxWord then (.integer value, some rest)
  else if isWhole && negative && 0 < value && value ≤ Nat.pow 2 63 then
    (.integer (-value), some rest)
  else
    let (digits, ten) := takeWhole 0 0 whole
    let (digits, ten) := takeFraction digits ten fraction
    match decimalText? negative digits (ten + power.getD 0) with
    | some shown => (.decimal shown, some rest)
    | none => (.fault .malformed none, some rest)

def digitsMissing (cs : List Char) : Json × Option (List Char) :=
  (.fault (if cs.isEmpty then .unfinished else .malformed) (some .malformed), none)

/-- The exponent of a number and what follows; none when it has no digits. -/
def readPower (cs : List Char) : Option Int × List Char :=
  let (negative, cs) :=
    match cs with
    | '+' :: cs => (false, cs)
    | '-' :: cs => (true, cs)
    | cs => (false, cs)
  let digits := cs.takeWhile isDigit
  let value : Int := digitsValue digits
  (if digits.isEmpty then none else some (if negative then -value else value), cs.dropWhile isDigit)

def readAfterFraction (negative : Bool) (whole fraction cs : List Char) :
    Json × Option (List Char) :=
  match cs with
  | c :: rest =>
    if c = 'e' ∨ c = 'E' then
      match readPower rest with
      | (some power, rest) => numberOf negative whole fraction (some power) rest
      | (none, rest) => digitsMissing rest
    else numberOf negative whole fraction none cs
  | [] => numberOf negative whole fraction none cs

def readDigits (negative : Bool) (cs : List Char) : Json × Option (List Char) :=
  match cs.takeWhile isDigit, cs.dropWhile isDigit with
  | [], rest => digitsMissing rest
  | '0' :: _ :: _, _ => (.fault .malformed (some .malformed), none)
  | whole, '.' :: rest =>
    match rest.takeWhile isDigit, rest.dropWhile isDigit with
    | [], rest => digitsMissing rest
    | fraction, rest => readAfterFraction negative whole fraction rest
  | whole, rest => readAfterFraction negative whole [] rest

def readNumber (cs : List Char) : Json × Option (List Char) :=
  match cs with
  | '-' :: rest => readDigits true rest
  | cs => readDigits false cs

/-! ## Values -/

def broken (f : Fault) : Json × Option (List Char) :=
  (.fault f (some f), none)

/-- A bare word, of which the letters `word` are still to come. -/
def readWord (value : Json) : List Char → List Char → Json × Option (List Char)
  | [], cs => (value, some cs)
  | _ :: _, [] => broken .unfinished
  | w :: word, c :: cs => if w = c then readWord value word cs else broken .malformed

def readScalar (cs : List Char) : Json × Option (List Char) :=
  match cs with
  | [] => broken .unfinished
  | 'n' :: rest => readWord .null "ull".toList rest
  | 't' :: rest => readWord (.bool true) "rue".toList rest
  | 'f' :: rest => readWord (.bool false) "alse".toList rest
  | '\x22' :: rest =>
    match readString {} rest with
    | (.ok text, .ok rest) => (.string text, some rest)
    | (.error f, .ok rest) => (.fault f none, some rest)
    | (.ok _, .error f) => broken f
    | (.error f, .error g) => (.fault f (some g), none)
  | c :: _ => if c = '-' ∨ isDigit c then readNumber cs else broken .malformed

mutual

/-- A value, and what follows it unless the text goes wrong; `fuel` bounds the number of parts. -/
def readValue (fuel : Nat) (cs : List Char) : Json × Option (List Char) :=
  match fuel with
  | 0 => broken .malformed
  | fuel + 1 =>
    match skipSpace cs with
    | '[' :: rest =>
      match skipSpace rest with
      | ']' :: rest => (.array [], some rest)
      | rest =>
        let (items, rest) := readItems fuel rest
        (.array items, rest)
    | '\x7b' :: rest =>
      match skipSpace rest with
      | '\x7d' :: rest => (.object [], some rest)
      | rest =>
        let (entries, rest) := readEntries fuel rest
        (.object entries, rest)
    | cs => readScalar cs

def readItems (fuel : Nat) (cs : List Char) : List Json × Option (List Char) :=
  match fuel with
  | 0 => ([.fault .malformed (some .malformed)], none)
  | fuel + 1 =>
    match readValue fuel cs with
    | (item, none) => ([item], none)
    | (item, some rest) =>
      match skipSpace rest with
      | ']' :: rest => ([item], some rest)
      | ',' :: rest =>
        let (items, rest) := readItems fuel rest
        (item :: items, rest)
      | [] => ([item, .fault .unfinished (some .unfinished)], none)
      | _ => ([item, .fault .malformed (some .malformed)], none)

def readEntries (fuel : Nat) (cs : List Char) : List Entry × Option (List Char) :=
  match fuel with
  | 0 => ([.fault .malformed (some .malformed)], none)
  | fuel + 1 =>
    match skipSpace cs with
    | [] => ([.fault .unfinished (some .unfinished)], none)
    | '\x22' :: rest =>
      match readString {} rest with
      | (.ok _, .error f) => ([.fault f (some f)], none)
      | (.error f, .error g) => ([.fault f (some g)], none)
      | (key, .ok rest) =>
        let (value, rest) : Json × Option (List Char) :=
          match skipSpace rest with
          | ':' :: rest => readValue fuel rest
          | [] => broken .unfinished
          | _ => broken .malformed
        let entry : Entry :=
          match key with
          | .ok key => .field key value
          | .error f => .fault f value.skipFault?
        match rest with
        | none => ([entry], none)
        | some rest =>
          match skipSpace rest with
          | '\x7d' :: rest => ([entry], some rest)
          | ',' :: rest =>
            let (entries, rest) := readEntries fuel rest
            (entry :: entries, rest)
          | [] => ([entry, .fault .unfinished (some .unfinished)], none)
          | _ => ([entry, .fault .malformed (some .malformed)], none)
    | _ => ([.fault .malformed (some .malformed)], none)

end

/-! ## Documents -/

/-- The number of arrays and objects around a value that may still be read. -/
def maxDepth : Nat := 127

/-- The document that a text holds, to any depth. -/
def Document.ofText (text : String) : Document :=
  let cs := text.toList
  match readValue (2 * cs.length + 2) cs with
  | (value, some rest) => ⟨value, if (skipSpace rest).isEmpty then none else some .malformed⟩
  | (value, none) => ⟨value, none⟩

/-- The document whose values are readable to the greatest depth only. -/
def Document.limited (d : Document) : Document :=
  ⟨d.value.limit maxDepth, d.rest⟩

end Typings.Json
