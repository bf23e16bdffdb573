import Typings.Yaml.Text

/-! # Tokens of YAML texts

The structure of a text shows in its signs and in its indentation. Both become tokens: where a line
starts further to the right than its collection a new one opens, and where it starts further to the
left some end.

That a scalar is a key shows only at the colon behind it. So the place in front of whatever may be a
key is remembered, and the tokens that announce the key are put there later.

* `Token`: signs, scalars, and the starts and ends of collections.
* `Scan`: the state of scanning, with `Scan.openBlock`, `Scan.closeBlocks` for the indentation and
  `Scan.saveKey`, `Scan.dropKey` for possible keys.
* `Scan.fetch?`: the next token.
* `tokens?`: the tokens of a text.
-/

namespace Typings.Yaml

inductive Token where
  | documentStart
  | documentEnd
  | listStart
  | mapStart
  | blockEnd
  | flowListStart
  | flowListEnd
  | flowMapStart
  | flowMapEnd
  | item
  | comma
  | key
  | value
  | bare (text : String)
  | quoted (text : String)
  deriving DecidableEq, Repr

/-- A place where a key may stand: the number of tokens in front of it, and its position. A required
    one must turn out to be a key. -/
structure KeyPlace where
  before : Nat
  line : Nat
  column : Nat
  required : Bool

structure Scan where
  /-- The tokens so far, latest first. -/
  tokens : List Token := []
  /-- The possible key at every level of brackets, innermost first; the last level is outside of
      all brackets. -/
  keys : List (Option KeyPlace) := [none]
  /-- The columns of the open collections without brackets, innermost first. -/
  blocks : List Nat := []
  /-- Whether a key may start here. -/
  keyAllowed : Bool := true

namespace Scan

/-! ## Indentation -/

def inFlow (s : Scan) : Bool :=
  1 < s.keys.length

/-- The column of the innermost collection without brackets, or that left of all. -/
def indent (s : Scan) : Int :=
  match s.blocks with
  | [] => -1
  | column :: _ => column

def emit (s : Scan) (t : Token) : Scan :=
  { s with tokens := t :: s.tokens }

/-- The scan with a token behind the first `before` ones. -/
def insert (s : Scan) (before : Nat) (t : Token) : Scan :=
  { s with tokens := s.tokens.insertIdx (s.tokens.length - before) t }

/-- Opens a collection at the column, with its token behind the first `before` ones, unless the
    collection is open. -/
def openBlock (s : Scan) (column before : Nat) (t : Token) : Scan :=
  if !s.inFlow && s.indent < column then
    { s.insert before t with blocks := column :: s.blocks }
  else s

def closeBlocks (s : Scan) (column : Int) : Scan :=
  if s.inFlow then s
  else
    let closed := s.blocks.takeWhile fun (block : Nat) => decide (column < (block : Int))
    { s with
      tokens := List.replicate closed.length .blockEnd ++ s.tokens
      blocks := s.blocks.drop closed.length }

/-! ## Possible keys -/

def maxKeyLength : Nat := 1024

/-- A possible key at the place `g`: a key is on one line and not too long. -/
def stillKey? (g : Glyph) : Option KeyPlace → Option (Option KeyPlace)
  | none => some none
  | some k =>
    if k.line < g.line ∨ k.column + maxKeyLength < g.column then
      if k.required then none else some none
    else some (some k)

/-- Forgets the possible keys that are none any more at the place `g`. -/
def dropStale (s : Scan) (g : Glyph) : Option Scan := do
  let keys ← s.keys.mapM (stillKey? g)
  return { s with keys }

def dropKey (s : Scan) : Option Scan :=
  match s.keys with
  | some k :: keys => if k.required then none else some { s with keys := none :: keys }
  | _ => some s

/-- Remembers that a key may start at `g`. -/
def saveKey (s : Scan) (g : Glyph) : Option Scan :=
  if s.keyAllowed then do
    let s ← s.dropKey
    let required := !s.inFlow && s.indent == g.column
    return { s with keys := some ⟨s.tokens.length, g.line, g.column, required⟩ :: s.keys.drop 1 }
  else some s

/-! ## Single tokens -/

/-- The scan behind a sign, where a key may or may not start. -/
def sign (s : Scan) (t : Token) (keyAllowed : Bool) : Option Scan := do
  let s ← s.dropKey
  return { s.emit t with keyAllowed }

def documentMark (s : Scan) (t : Token) : Option Scan :=
  (s.closeBlocks (-1)).sign t false

def openFlow (s : Scan) (g : Glyph) (t : Token) : Option Scan := do
  let s ← s.saveKey g
  return { s.emit t with keys := none :: s.keys, keyAllowed := true }

def closeFlow (s : Scan) (t : Token) : Option Scan := do
  let s ← s.sign t false
  return if s.inFlow then { s with keys := s.keys.drop 1 } else s

def itemSign (s : Scan) (g : Glyph) : Option Scan :=
  if !s.inFlow && !s.keyAllowed then none
  else (s.openBlock g.column s.tokens.length .listStart).sign .item true

def keySign (s : Scan) (g : Glyph) : Option Scan :=
  if !s.inFlow && !s.keyAllowed then none
  else (s.openBlock g.column s.tokens.length .mapStart).sign .key (!s.inFlow)

def valueSign (s : Scan) (g : Glyph) : Option Scan :=
  match s.keys with
  | some k :: keys =>
    let s := ((s.insert k.before .key).openBlock k.column k.before .mapStart).emit .value
    some { s with keys := none :: keys, keyAllowed := false }
  | _ =>
    if !s.inFlow && !s.keyAllowed then none
    else
      let s := (s.openBlock g.column s.tokens.length .mapStart).emit .value
      some { s with keyAllowed := !s.inFlow }

def quotedText (s : Scan) (g : Glyph) (read : Option (String × List Glyph)) :
    Option (Scan × List Glyph) := do
  let s ← s.saveKey g
  let (text, rest) ← read
  return ({ s.emit (.quoted text) with keyAllowed := false }, rest)

def blockText (s : Scan) (isFolded : Bool) (gs : List Glyph) : Option (Scan × List Glyph) := do
  let s ← s.dropKey
  let (text, rest) ← blockText? isFolded s.indent gs
  return ({ s.emit (.quoted text) with keyAllowed := true }, rest)

/-- Whether a text without quotes may start with `c`, which `rest` follows. -/
def startsPlain (s : Scan) (c : Char) (rest : List Glyph) : Bool :=
  !("-?:,[]\x7b\x7d#&*!|>'\x22%@\x60".toList.contains c)
    || (c == '-' && !(rest.head?.any fun g => isBlank g.char))
    || (!s.inFlow && (c == '?' || c == ':') && !gapAhead rest)

def plainText (s : Scan) (g : Glyph) (gs : List Glyph) : Option (Scan × List Glyph) :=
  if isBlank g.char || !s.startsPlain g.char gs then none
  else do
    let s ← s.saveKey g
    let (text, isBroken, rest) ← plainText? s.inFlow (s.indent + 1) [] .empty (g :: gs)
    return ({ s.emit (.bare text) with keyAllowed := isBroken }, rest)

/-- The token that starts at `g`, and what follows it. -/
def fetch? (s : Scan) (g : Glyph) (gs : List Glyph) : Option (Scan × List Glyph) :=
  let single (s : Option Scan) := s.map fun s => (s, gs)
  if isMark '-' (g :: gs) then (s.documentMark .documentStart).map fun s => (s, gs.drop 2)
  else if isMark '.' (g :: gs) then (s.documentMark .documentEnd).map fun s => (s, gs.drop 2)
  else
    match g.char with
    | '[' => single (s.openFlow g .flowListStart)
    | '\x7b' => single (s.openFlow g .flowMapStart)
    | ']' => single (s.closeFlow .flowListEnd)
    | '\x7d' => single (s.closeFlow .flowMapEnd)
    | ',' => single (s.sign .comma true)
    | '-' => if gapAhead gs then single (s.itemSign g) else s.plainText g gs
    | '?' => if s.inFlow || gapAhead gs then single (s.keySign g) else s.plainText g gs
    | ':' => if s.inFlow || gapAhead gs then single (s.valueSign g) else s.plainText g gs
    | '|' => if s.inFlow then none else s.blockText false gs
    | '>' => if s.inFlow then none else s.blockText true gs
    | '\'' => s.quotedText g (singleText? [] .empty false gs)
    | '\x22' => s.quotedText g (doubleText? [] .empty .none gs)
    | _ => s.plainText g gs

end Scan

/-! ## Whole texts -/

/-- What follows spaces, comments and line breaks, and whether a key may start there. A tab counts
    as a space only where no key may start. -/
def skipGap (inFlow keyAllowed inComment : Bool) : List Glyph → Bool × List Glyph
  | [] => (keyAllowed, [])
  | g :: gs =>
    if isBreak g.char then skipGap inFlow (keyAllowed || !inFlow) false gs
    else if inComment then skipGap inFlow keyAllowed true gs
    else if g.char = ' ' ∨ (g.char = '\t' ∧ (inFlow ∨ !keyAllowed)) then
      skipGap inFlow keyAllowed false gs
    else if g.char = '#' then skipGap inFlow keyAllowed true gs
    else (keyAllowed, g :: gs)

/-- The tokens of the rest of a text; `fuel` bounds their number. -/
def tokensFrom? (fuel : Nat) (s : Scan) (gs : List Glyph) : Option (List Token) :=
  match fuel, skipGap s.inFlow s.keyAllowed false gs with
  | _, (_, []) => (s.closeBlocks (-1)).dropKey.map fun s => s.tokens.reverse
  | 0, _ => none
  | fuel + 1, (keyAllowed, g :: gs) => do
    let s ← { s with keyAllowed }.dropStale g
    let (s, gs) ← (s.closeBlocks g.column).fetch? g gs
    tokensFrom? fuel s gs

/-- The tokens of a text; none if it is malformed. -/
def tokens? (text : String) : Option (List Token) :=
  let cs := text.toList
  if cs.all isReadable then tokensFrom? cs.length {} (glyphs cs) else none

end Typings.Yaml
