/-! # Inline links

A text may contain links, written as a label between brackets and a target between parentheses. A
label contains no closing bracket. A target contains parentheses only as an empty pair.

* `InlineLink`: a link.
* `linkAt?`: the link at the start of a text.
* `pieces`: a text as its links, from the left and without overlap, and the characters between them.
* `splitAtSeparator?`: a reference as container and member, parted by the first double colon.
-/

namespace Typings.Text

structure InlineLink where
  label : List Char
  target : List Char
  deriving DecidableEq, Repr

def InlineLink.length (link : InlineLink) : Nat :=
  link.label.length + link.target.length + 4

/-- The rest of a label, and what follows its closing bracket. -/
def readLabel : List Char → Option (List Char × List Char)
  | [] => none
  | c :: cs =>
    if c = ']' then some ([], cs)
    else
      match readLabel cs with
      | some (label, rest) => some (c :: label, rest)
      | none => none

/-- The rest of a target, and what follows its closing parenthesis. -/
def readTarget : List Char → Option (List Char × List Char)
  | [] => none
  | ')' :: cs => some ([], cs)
  | '(' :: ')' :: cs =>
    match readTarget cs with
    | some (target, rest) => some ('(' :: ')' :: target, rest)
    | none => none
  | '(' :: _ => none
  | c :: cs =>
    match readTarget cs with
    | some (target, rest) => some (c :: target, rest)
    | none => none

def linkAt? : List Char → Option InlineLink
  | '[' :: cs =>
    match readLabel cs with
    | some (label, '(' :: cs) =>
      match readTarget cs with
      | some (target, _) => some ⟨label, target⟩
      | none => none
    | _ => none
  | _ => none

/-- A part of a text: a link, or a character outside of all links. -/
inductive Piece where
  | char (c : Char)
  | link (link : InlineLink)
  deriving DecidableEq, Repr

/-- The pieces of a text after the next `skip` characters, which belong to a link. -/
def piecesAfter (skip : Nat) : List Char → List Piece
  | [] => []
  | c :: cs =>
    match skip with
    | skip + 1 => piecesAfter skip cs
    | 0 =>
      match linkAt? (c :: cs) with
      | some link => .link link :: piecesAfter (link.length - 1) cs
      | none => .char c :: piecesAfter 0 cs

def pieces (cs : List Char) : List Piece :=
  piecesAfter 0 cs

/-- What comes before the first double colon, and what comes after it. -/
def splitAtSeparator? : List Char → Option (List Char × List Char)
  | ':' :: ':' :: cs => some ([], cs)
  | c :: cs =>
    match splitAtSeparator? cs with
    | some (container, member) => some (c :: container, member)
    | none => none
  | [] => none

/-- The rest of a text behind its start `start`. -/
def afterStart? (start cs : List Char) : Option (List Char) :=
  if start.isPrefixOf cs then some (cs.drop start.length) else none

end Typings.Text
