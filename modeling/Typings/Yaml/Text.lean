import Typings.Yaml.Character
import Typings.Yaml.Scalar

/-! # Reading the texts of YAML

A text may run over several lines. How its line breaks are read depends on its style.

* `Gap`, `Gap.folded`: white space inside a plain or quoted text.
* `plainText?`: a text without quotes; it ends where something else starts.
* `singleText?`, `doubleText?`: texts between quotes.
* `blockText?`: a text on lines of its own, whose line breaks are kept or folded.
-/

namespace Typings.Yaml

/-! ## White space in a text -/

/-- White space inside a text: blanks, or line breaks, which take the blanks around them along. -/
inductive Gap where
  | blanks (cs : List Char)
  /-- The first line break, unless it is an escaped one, and the further ones. -/
  | breaks (first : Option Char) (more : List Char)

namespace Gap

def empty : Gap :=
  .blanks []

def isEmpty : Gap → Bool
  | .blanks cs => cs.isEmpty
  | .breaks _ _ => false

def isBroken : Gap → Bool
  | .blanks _ => false
  | .breaks _ _ => true

def addBlank (c : Char) : Gap → Gap
  | .blanks cs => .blanks (cs ++ [c])
  | gap => gap

def addBreak (c : Char) : Gap → Gap
  | .blanks _ => .breaks (some c) []
  | .breaks first more => .breaks first (more ++ [c])

/-- What the white space stands for: a single line feed is a space, and of several line breaks the
    first is dropped if it is a line feed. -/
def folded : Gap → List Char
  | .blanks cs => cs
  | .breaks (some '\n') [] => [' ']
  | .breaks (some '\n') more => more
  | .breaks first more => first.toList ++ more

end Gap

/-- The text so far, latest character first, with the white space behind it. -/
def close (done : List Char) (gap : Gap) : List Char :=
  gap.folded.reverse ++ done

def textOf (done : List Char) : String :=
  .ofList done.reverse

/-! ## Plain texts -/

/-- Whether `c` has a meaning of its own inside brackets. -/
def isFlowSign (c : Char) : Bool :=
  ",[]\x7b\x7d".toList.contains c

/-- Whether a plain text ends in front of `c`, which `rest` follows. -/
def endsPlain (inFlow : Bool) (c : Char) (rest : List Glyph) : Bool :=
  (c == ':' && gapAhead rest) || (inFlow && isFlowSign c)

/-- Whether a colon in front of `rest` is out of place in a plain text inside brackets. -/
def strayColon (inFlow : Bool) (c : Char) (rest : List Glyph) : Bool :=
  inFlow && c == ':' && rest.head?.any fun g => isFlowSign g.char || g.char == '?'

/-- The rest of a plain text, whether a line ends behind it, and what follows. Further lines start
    at the column `indent` or behind it. -/
def plainText? (inFlow : Bool) (indent : Int) (done : List Char) (gap : Gap) :
    List Glyph → Option (String × Bool × List Glyph)
  | [] => some (textOf done, gap.isBroken, [])
  | g :: gs =>
    if isBreak g.char then plainText? inFlow indent done (gap.addBreak g.char) gs
    else if isBlank g.char then
      if gap.isBroken && g.char == '\t' && g.column < indent then none
      else plainText? inFlow indent done (gap.addBlank g.char) gs
    else if (gap.isBroken && !inFlow && g.column < indent) || isDocumentMark (g :: gs)
        || (g.char == '#' && !gap.isEmpty) || endsPlain inFlow g.char gs then
      some (textOf done, gap.isBroken, g :: gs)
    else if strayColon inFlow g.char gs then none
    else plainText? inFlow indent (g.char :: close done gap) .empty gs

/-! ## Quoted texts -/

/-- The rest of a text between single quotes, and what follows. `afterQuote` tells that the last
    character was a quote: the end, unless it is written twice. -/
def singleText? (done : List Char) (gap : Gap) (afterQuote : Bool) :
    List Glyph → Option (String × List Glyph)
  | [] => if afterQuote then some (textOf done, []) else none
  | g :: gs =>
    if afterQuote then
      if g.char = '\'' then singleText? ('\'' :: done) .empty false gs
      else some (textOf done, g :: gs)
    else if isBreak g.char then singleText? done (gap.addBreak g.char) false gs
    else if isBlank g.char then singleText? done (gap.addBlank g.char) false gs
    else if isDocumentMark (g :: gs) then none
    else if g.char = '\'' then singleText? (close done gap) .empty true gs
    else singleText? (g.char :: close done gap) .empty false gs

/-- Where the reading of a text between double quotes stands: in the text, behind a backslash, or in
    a code of which some digits are still to come. -/
inductive Escape where
  | none
  | opened
  | code (digits value : Nat)

/-- The number of digits in the code that the letter starts. -/
def codeLength? (c : Char) : Option Nat :=
  match c with
  | 'x' => some 2
  | 'u' => some 4
  | 'U' => some 8
  | _ => none

def escaped? (c : Char) : Option Char :=
  match c with
  | '0' => some '\x00'
  | 'a' => some '\x07'
  | 'b' => some '\x08'
  | 't' => some '\t'
  | '\t' => some '\t'
  | 'n' => some '\n'
  | 'v' => some '\x0b'
  | 'f' => some '\x0c'
  | 'r' => some '\r'
  | 'e' => some '\x1b'
  | ' ' => some ' '
  | '\x22' => some '\x22'
  | '/' => some '/'
  | '\\' => some '\\'
  | 'N' => some '\x85'
  | '_' => some '\u00a0'
  | 'L' => some '\u2028'
  | 'P' => some '\u2029'
  | _ => none

def charOf? (code : Nat) : Option Char :=
  if code.isValidChar then some (Char.ofNat code) else none

/-- The rest of a text between double quotes, and what follows. -/
def doubleText? (done : List Char) (gap : Gap) (escape : Escape) :
    List Glyph → Option (String × List Glyph)
  | [] => none
  | g :: gs =>
    match escape with
    | .none =>
      if isBreak g.char then doubleText? done (gap.addBreak g.char) .none gs
      else if isBlank g.char then doubleText? done (gap.addBlank g.char) .none gs
      else if isDocumentMark (g :: gs) then none
      else if g.char = '\x22' then some (textOf (close done gap), gs)
      else if g.char = '\\' then doubleText? (close done gap) .empty .opened gs
      else doubleText? (g.char :: close done gap) .empty .none gs
    | .opened =>
      if isBreak g.char then doubleText? done (.breaks none []) .none gs
      else
        match codeLength? g.char, escaped? g.char with
        | some digits, _ => doubleText? done gap (.code digits 0) gs
        | none, some c => doubleText? (c :: done) gap .none gs
        | none, none => none
    | .code digits value =>
      match digitValue? 16 g.char with
      | none => none
      | some digit =>
        let value := 16 * value + digit
        if digits ≤ 1 then
          match charOf? value with
          | some c => doubleText? (c :: done) gap .none gs
          | none => none
        else doubleText? done gap (.code (digits - 1) value) gs

/-! ## Texts on lines of their own -/

/-- What becomes of the line breaks at the end of a text. -/
inductive Chomp where
  | strip
  | clip
  | keep
  deriving DecidableEq, Repr

/-- The sign in front, if it is one of those that `hint` knows, and the rest. -/
def takeHint {α : Type} (hint : Char → Option α) : List Glyph → Option α × List Glyph
  | [] => (none, [])
  | g :: gs =>
    match hint g.char with
    | some x => (some x, gs)
    | none => (none, g :: gs)

def chomp? (c : Char) : Option Chomp :=
  match c with
  | '+' => some .keep
  | '-' => some .strip
  | _ => none

def depth? (c : Char) : Option Nat :=
  (digitValue? 10 c).filter (· ≠ 0)

/-- The signs behind that of the text, in either order. -/
def blockHints (gs : List Glyph) : Chomp × Option Nat × List Glyph :=
  match takeHint chomp? gs with
  | (some chomp, gs) =>
    let (depth, gs) := takeHint depth? gs
    (chomp, depth, gs)
  | (none, gs) =>
    let (depth, gs) := takeHint depth? gs
    let (chomp, gs) := takeHint chomp? gs
    (chomp.getD .clip, depth, gs)

/-- What follows the end of a line on which there may only be a comment. -/
def lineRest? (inComment : Bool) : List Glyph → Option (List Glyph)
  | [] => some []
  | g :: gs =>
    if isBreak g.char then some gs
    else if inComment || isBlank g.char then lineRest? inComment gs
    else if g.char = '#' then lineRest? true gs
    else none

/-- The greatest column up to which the leading lines are empty: where the first line with a text
    starts, unless an empty line is longer. -/
def leadingColumn? (most : Nat) : List Glyph → Option Nat
  | [] => some most
  | g :: gs =>
    if g.char = ' ' then leadingColumn? most gs
    else if g.char = '\t' then none
    else if isBreak g.char then leadingColumn? (max most g.column) gs
    else some (max most g.column)

/-- A text in the course of being read: its characters, latest first, the end of its last line, the
    ends of the empty lines behind it, latest first, and whether the last line starts with a
    blank. -/
structure Lines where
  done : List Char := []
  lineEnd : Option Char := none
  empties : List Char := []
  startsBlank : Bool := false

namespace Lines

/-- The text with a further line that starts with `c`. Between two lines without leading blanks a
    line feed is folded. -/
def startLine (lines : Lines) (isFolded : Bool) (c : Char) : Lines :=
  let isFolding := isFolded && lines.lineEnd == some '\n' && !lines.startsBlank && !isBlank c
  let between :=
    if isFolding then (if lines.empties.isEmpty then [' '] else []) else lines.lineEnd.toList
  { done := c :: lines.empties ++ between ++ lines.done, startsBlank := isBlank c }

def finish (lines : Lines) (chomp : Chomp) : String :=
  match chomp with
  | .strip => textOf lines.done
  | .clip => textOf (lines.lineEnd.toList ++ lines.done)
  | .keep => textOf (lines.empties ++ lines.lineEnd.toList ++ lines.done)

end Lines

/-- The rest of a text whose lines start at the column `indent`, and what follows. `inMargin` tells
    that no character of the line has been read. -/
def blockLines? (isFolded : Bool) (chomp : Chomp) (indent : Nat) (lines : Lines) (inMargin : Bool) :
    List Glyph → Option (String × List Glyph)
  | [] => some (lines.finish chomp, [])
  | g :: gs =>
    if inMargin then
      if isBreak g.char then
        blockLines? isFolded chomp indent { lines with empties := g.char :: lines.empties } true gs
      else if indent ≤ g.column then
        blockLines? isFolded chomp indent (lines.startLine isFolded g.char) false gs
      else if g.char = ' ' then blockLines? isFolded chomp indent lines true gs
      else if g.char = '\t' then none
      else some (lines.finish chomp, g :: gs)
    else if isBreak g.char then
      blockLines? isFolded chomp indent { lines with lineEnd := some g.char } true gs
    else blockLines? isFolded chomp indent { lines with done := g.char :: lines.done } false gs

/-- The text behind the sign of a literal or folded text, and what follows. `indent` is the column
    of the collection around it. -/
def blockText? (isFolded : Bool) (indent : Int) (gs : List Glyph) :
    Option (String × List Glyph) := do
  let (chomp, depth, gs) := blockHints gs
  let gs ← lineRest? false gs
  let column ←
    match depth with
    | some depth => pure (indent.toNat + depth)
    | none => (leadingColumn? 0 gs).map fun most => max most (max (indent + 1).toNat 1)
  blockLines? isFolded chomp column {} true gs

end Typings.Yaml
