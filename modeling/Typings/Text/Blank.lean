/-! # Blank characters

White space, and texts without it at their ends.

* `isBlank`: the white space characters.
* `trim`: a text without the white space at its ends; a text is *blank* when nothing is left.
-/

namespace Typings.Text

/-- Whether `c` is white space. -/
def isBlank (c : Char) : Bool :=
  let n := c.toNat
  (0x9 ≤ n && n ≤ 0xD) || n == 0x20 || n == 0x85 || n == 0xA0 || n == 0x1680
    || (0x2000 ≤ n && n ≤ 0x200A) || n == 0x2028 || n == 0x2029 || n == 0x202F || n == 0x205F
    || n == 0x3000

def trimStartChars (cs : List Char) : List Char :=
  cs.dropWhile isBlank

def trimEndChars (cs : List Char) : List Char :=
  (cs.reverse.dropWhile isBlank).reverse

def trim (s : String) : String :=
  .ofList (trimEndChars (trimStartChars s.toList))

def trimEnd (s : String) : String :=
  .ofList (trimEndChars s.toList)

def isBlankText (s : String) : Bool :=
  s.toList.all isBlank

end Typings.Text
