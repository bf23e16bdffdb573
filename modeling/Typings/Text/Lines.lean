/-! # Lines

* `linesOf`: the lines of a text. A line ends with a line feed, or with a carriage return and a line
  feed, and these do not belong to it; after the last line feed there is no further line.
-/

namespace Typings.Text

/-- The characters of a line that a line feed ends, from the last one to the first. -/
def endLine : List Char → List Char
  | '\r' :: line => line
  | line => line

/-- The lines of the rest of a text; `line` holds the characters of the current one, latest
    first. -/
def lineChars (line : List Char) : List Char → List (List Char)
  | [] => if line.isEmpty then [] else [line.reverse]
  | c :: cs =>
    if c = '\n' then (endLine line).reverse :: lineChars [] cs else lineChars (c :: line) cs

def linesOf (text : String) : List String :=
  (lineChars [] text.toList).map .ofList

end Typings.Text
