import Typings.Json.Basic
import Typings.Yaml.Character
import Typings.Yaml.Scalar

/-! # Printing YAML

Values in block style: an entry or an item to a line, each level two spaces deeper, the items of a
list directly below their key. Texts stand without quotes where that is unambiguous.

* `Traits`: what counts for the choice of a text's style.
* `Style`, `styleOf`: plain, single-quoted, double-quoted and literal texts, and which text is
  written how.
* `printScalar`: a text in its style.
* `print`: a value.
-/

namespace Typings.Yaml

/-! ## The style of a text -/

def isGap (c : Char) : Bool :=
  c == ' ' || c == '\t' || c == '\x00' || isBreak c

/-- Whether a text that starts with `c` is taken for something else than a text. -/
def isIndicator (c : Char) : Bool :=
  "#,[]\x7b\x7d&*!|>'\x22%@\x60".toList.contains c

/-- What counts for the choice of a text's style. -/
structure Traits where
  /-- A place where a plain text would end, or be something else. -/
  indicator : Bool := false
  /-- A character that cannot be written as it is. -/
  special : Bool := false
  lineBreak : Bool := false
  /-- A space in front of a line break. -/
  spaceBreak : Bool := false
  /-- A space behind a line break. -/
  breakSpace : Bool := false

inductive Before where
  | start
  | space
  | break
  | gap
  | other
  deriving DecidableEq

def Before.isGap : Before → Bool
  | .other => false
  | _ => true

def beforeOf (c : Char) : Before :=
  if c = ' ' then .space else if isBreak c then .break else if isGap c then .gap else .other

/-- Whether a character at this place ends a plain text or turns it into something else. -/
def indicates (before : Before) (c : Char) (rest : List Char) : Bool :=
  let gapNext :=
    match rest with
    | [] => true
    | d :: _ => isGap d
  match before with
  | .start => isIndicator c || ((c == '?' || c == ':' || c == '-') && gapNext)
  | before => (c == ':' && gapNext) || (c == '#' && before.isGap)

def traitsFrom (before : Before) (t : Traits) : List Char → Traits
  | [] => t
  | c :: cs =>
    traitsFrom (beforeOf c)
      { indicator := t.indicator || indicates before c cs
        special := t.special || !isPrintable c
        lineBreak := t.lineBreak || isBreak c
        spaceBreak := t.spaceBreak || (before == .space && isBreak c)
        breakSpace := t.breakSpace || (before == .break && c == ' ') } cs

def traits (cs : List Char) : Traits :=
  let marker := ['-', '-', '-'].isPrefixOf cs || ['.', '.', '.'].isPrefixOf cs
  traitsFrom .start { indicator := marker } cs

inductive Style where
  | plain
  | single
  | double
  | literal
  deriving DecidableEq, Repr

/-- Whether the text has a space or a line break at an end. -/
def hasLooseEnd (cs : List Char) : Bool :=
  let loose := fun c => c == ' ' || isBreak c
  cs.head?.any loose || cs.getLast?.any loose

/-- The style of a text. Several lines make a literal text, unless characters need escapes or a line
    ends with a space; one line is plain if it stands for itself. -/
def styleOf (s : String) : Style :=
  let cs := s.toList
  let t := traits cs
  if s.isEmpty then .single
  else if t.spaceBreak || t.special then .double
  else if cs.contains '\n' then
    if cs.getLast? == some ' ' then .double else .literal
  else if t.breakSpace then .double
  else if !isBareText s || t.lineBreak || hasLooseEnd cs || t.indicator then .single
  else .plain

/-! ## Texts -/

def hexUpper (n : Nat) : Char :=
  if n < 10 then Char.ofNat (0x30 + n) else Char.ofNat (0x37 + n)

/-- The last `count` hexadecimal digits of a number. -/
def hexDigits (count n : Nat) : List Char :=
  (List.range count).reverse.map fun i => hexUpper (n / Nat.pow 16 i % 16)

def doubleChar (c : Char) : List Char :=
  if isPrintable c && !isBreak c && c != '\x22' && c != '\\' then [c]
  else
    match c with
    | '\x00' => ['\\', '0']
    | '\x07' => ['\\', 'a']
    | '\x08' => ['\\', 'b']
    | '\t' => ['\\', 't']
    | '\n' => ['\\', 'n']
    | '\x0b' => ['\\', 'v']
    | '\x0c' => ['\\', 'f']
    | '\r' => ['\\', 'r']
    | '\x1b' => ['\\', 'e']
    | '\x22' => ['\\', '\x22']
    | '\\' => ['\\', '\\']
    | '\x85' => ['\\', 'N']
    | '\u2028' => ['\\', 'L']
    | '\u2029' => ['\\', 'P']
    | c =>
      if c.toNat ≤ 0xFF then '\\' :: 'x' :: hexDigits 2 c.toNat
      else if c.toNat ≤ 0xFFFF then '\\' :: 'u' :: hexDigits 4 c.toNat
      else '\\' :: 'U' :: hexDigits 8 c.toNat

def indent (n : Nat) : List Char :=
  List.replicate n ' '

/-- The rest of a single-quoted text, whose lines start at the column `level`. -/
def singleChars (level : Nat) (afterBreak : Bool) : List Char → List Char
  | [] => if afterBreak then indent level else []
  | c :: cs =>
    if isBreak c then c :: singleChars level true cs
    else
      (if afterBreak then indent level else [])
        ++ (if c = '\'' then ['\'', '\''] else [c]) ++ singleChars level false cs

/-- The rest of a literal text, whose lines start at the column `level`; empty lines stay empty. -/
def literalChars (level : Nat) (afterBreak : Bool) : List Char → List Char
  | [] => []
  | c :: cs =>
    if isBreak c then c :: literalChars level true cs
    else (if afterBreak then indent level else []) ++ c :: literalChars level false cs

/-- What stands behind the sign of a literal text: its indentation, if its first line hides it, and
    what becomes of the line breaks at its end. -/
def literalHints (cs : List Char) : List Char :=
  let first := if cs.head?.any fun c => c == ' ' || isBreak c then ['2'] else []
  let last :=
    match cs.reverse with
    | [] => ['-']
    | [c] => if isBreak c then ['+'] else ['-']
    | c :: d :: _ => if isBreak c then (if isBreak d then ['+'] else []) else ['-']
  first ++ last

/-- A text in its style, with the end of its line. Further lines start at the column `level`. -/
def printText (level : Nat) (s : String) : List Char :=
  let cs := s.toList
  match styleOf s with
  | .plain => cs ++ ['\n']
  | .single => '\'' :: singleChars level false cs ++ ['\'', '\n']
  | .double => '\x22' :: cs.flatMap doubleChar ++ ['\x22', '\n']
  | .literal =>
    '|' :: literalHints cs ++ '\n' :: literalChars level true cs
      ++ (if cs.getLast?.any isBreak then [] else ['\n'])

/-! ## Values -/

/-- A key, without the end of its line. -/
def printKey (key : String) : List Char :=
  let cs := key.toList
  match styleOf key with
  | .plain => cs
  | .single => '\'' :: singleChars 0 false cs ++ ['\'']
  | _ => '\x22' :: cs.flatMap doubleChar ++ ['\x22']

def wordLine (s : String) : List Char :=
  s.toList ++ ['\n']

mutual

/-- What stands behind the sign of an item; its further lines start at the column `level`. -/
def itemChars (level : Nat) : Json → List Char
  | .null => wordLine "null"
  | .bool value => wordLine (if value then "true" else "false")
  | .integer value => wordLine (toString value)
  | .decimal shown => wordLine shown
  | .string text => printText level text
  | .scalar _ j => itemChars level j
  | .array [] => wordLine "[]"
  | .array (j :: js) => '-' :: ' ' :: itemChars (level + 2) j ++ itemsChars level js
  | .object [] => wordLine "\x7b\x7d"
  | .object (e :: es) => entryChars level e ++ entriesChars level es
  | .fault _ _ => wordLine "null"

def itemsChars (level : Nat) : List Json → List Char
  | [] => []
  | j :: js => indent level ++ '-' :: ' ' :: itemChars (level + 2) j ++ itemsChars level js

def entriesChars (level : Nat) : List Json.Entry → List Char
  | [] => []
  | e :: es => indent level ++ entryChars level e ++ entriesChars level es

def entryChars (level : Nat) : Json.Entry → List Char
  | .field key j => printKey key ++ ':' :: valueChars level j
  | .fault _ _ => []

def valueChars (level : Nat) : Json → List Char
  | .array (j :: js) => '\n' :: indent level ++ '-' :: ' ' :: itemChars (level + 2) j
      ++ itemsChars level js
  | .object (e :: es) =>
    '\n' :: indent (level + 2) ++ entryChars (level + 2) e ++ entriesChars (level + 2) es
  | .null => ' ' :: wordLine "null"
  | .bool value => ' ' :: wordLine (if value then "true" else "false")
  | .integer value => ' ' :: wordLine (toString value)
  | .decimal shown => ' ' :: wordLine shown
  | .string text => ' ' :: printText (level + 2) text
  | .scalar _ j => valueChars level j
  | .array [] => ' ' :: wordLine "[]"
  | .object [] => ' ' :: wordLine "\x7b\x7d"
  | .fault _ _ => ' ' :: wordLine "null"

end

def print (j : Json) : String :=
  .ofList (itemChars 0 j)

end Typings.Yaml
