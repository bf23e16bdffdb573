import Typings.Text.Uppercase

/-! # Pascal case

Names written in snake, kebab or dotted style become one capitalised word: every part between
separators starts with its uppercase form, and the separators are dropped.

* `isSeparator`: the characters that part a name.
* `pascalCase`: the capitalised word.
-/

namespace Typings.Text

/-- Whether `c` parts a name into its words. -/
def isSeparator (c : Char) : Bool :=
  c == '_' || c == '-' || c == ' ' || c == '.'

/-- The capitalised form of the rest of a name; `atStart` tells whether a word is about to start. -/
def pascalChars (atStart : Bool) : List Char → List Char
  | [] => []
  | c :: cs =>
    if isSeparator c then pascalChars true cs
    else if atStart then uppercase c ++ pascalChars false cs
    else c :: pascalChars false cs

def pascalCase (name : String) : String :=
  .ofList (pascalChars true name.toList)

end Typings.Text
