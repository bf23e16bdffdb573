/-! # Characters of YAML texts

The classes of characters that matter for reading and for printing, and characters together with
their places.

* `isBreak`, `isBlank`, `isPrintable`, `isReadable`: classes of characters.
* `Glyph`, `glyphs`: the characters of a text, each with its line and its column.
-/

namespace Typings.Yaml

/-! ## Classes -/

def isBreak (c : Char) : Bool :=
  c == '\n' || c == '\r' || c == '\x85' || c == '\u2028' || c == '\u2029'

def isBlank (c : Char) : Bool :=
  c == ' ' || c == '\t'

/-- Whether `c` can be written as it is. -/
def isPrintable (c : Char) : Bool :=
  let n := c.toNat
  n == 0xA || (0x20 ≤ n && n ≤ 0x7E) || (0xA0 ≤ n && n ≤ 0xD7FF)
    || (0xE000 ≤ n && n ≤ 0xFFFD && n != 0xFEFF) || 0x10000 ≤ n

def isReadable (c : Char) : Bool :=
  isPrintable c || isBlank c || isBreak c || c == '\uFEFF'

/-! ## Places -/

structure Glyph where
  char : Char
  line : Nat
  column : Nat

/-- The characters of a text from a place on. The usual ends of lines all become line feeds. -/
def glyphsFrom (line column : Nat) : List Char → List Glyph
  | [] => []
  | '\r' :: '\n' :: cs => ⟨'\n', line, column⟩ :: glyphsFrom (line + 1) 0 cs
  | c :: cs =>
    if c = '\r' ∨ c = '\x85' then ⟨'\n', line, column⟩ :: glyphsFrom (line + 1) 0 cs
    else if isBreak c then ⟨c, line, column⟩ :: glyphsFrom (line + 1) 0 cs
    else ⟨c, line, column⟩ :: glyphsFrom line (column + 1) cs

/-- The characters of a text, without the mark at its start that only tells its encoding. -/
def glyphs : List Char → List Glyph
  | '\uFEFF' :: cs => glyphsFrom 0 0 cs
  | cs => glyphsFrom 0 0 cs

/-- Whether a gap follows: a blank, the end of a line or the end of the text. -/
def gapAhead : List Glyph → Bool
  | [] => true
  | g :: _ => isBlank g.char || isBreak g.char

/-- Whether the mark of a document's start or end stands here: three times `c` at the start of a
    line. -/
def isMark (c : Char) : List Glyph → Bool
  | g :: h :: i :: rest =>
    g.column == 0 && g.char == c && h.char == c && i.char == c && gapAhead rest
  | _ => false

def isDocumentMark (gs : List Glyph) : Bool :=
  isMark '-' gs || isMark '.' gs

end Typings.Yaml
