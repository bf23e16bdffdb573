/-! # Quotations

The tokens that a text puts between double quotes.

* `quotations`: every token between two quotes, from the left; a line break ends an open quotation.
* `distinct`: a list without its repetitions.
* `quotedTokens`: the tokens of a text, each once, in order of appearance.
-/

namespace Typings.Text

/-- The tokens of the rest of a text. `token` holds the characters since an open quote, latest
    first. Two quotes in a row hold no token: the second one opens the next quotation. -/
def quotations (token : Option (List Char)) : List Char → List (List Char)
  | [] => []
  | c :: cs =>
    match token with
    | none => quotations (if c = '"' then some [] else none) cs
    | some [] =>
      if c = '"' then quotations (some []) cs
      else quotations (if c = '\n' then none else some [c]) cs
    | some (t :: ts) =>
      if c = '"' then (t :: ts).reverse :: quotations none cs
      else quotations (if c = '\n' then none else some (c :: t :: ts)) cs

/-- The elements of a list in order of first appearance, each once; `seen` holds those met. -/
def distinct {α : Type} [BEq α] (seen : List α) : List α → List α
  | [] => []
  | x :: xs => if seen.contains x then distinct seen xs else x :: distinct (x :: seen) xs

/-- The quoted tokens of a text, each once, in order of appearance. -/
def quotedTokens (text : String) : List String :=
  (distinct [] (quotations none text.toList)).map .ofList

end Typings.Text
