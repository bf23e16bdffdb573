import Typings.Text.Word

/-! # Discriminators

The description of a table with variants may name the field that tells the variants apart, as
``depending on `field`:``.

* `discriminatorAt?`: the field named at the start of a text.
* `discriminators`: the fields named anywhere in a text, in order.
* `discriminatorField?`: the field, when the text names exactly one.
-/

namespace Typings.Text

def discriminatorOpening : List Char := "depending on `".toList

def dropStart? : List Char → List Char → Option (List Char)
  | [], cs => some cs
  | _ :: _, [] => none
  | p :: ps, c :: cs => if p = c then dropStart? ps cs else none

/-- The field that the text names at its very start. The field is a run of word characters, and a
    closing mark with a colon follows it. -/
def discriminatorAt? (cs : List Char) : Option (List Char) :=
  match dropStart? discriminatorOpening cs with
  | none => none
  | some rest =>
    match rest.takeWhile isWord, rest.dropWhile isWord with
    | [], _ => none
    | field, '\x60' :: ':' :: _ => some field
    | _, _ => none

/-- The fields that the text names, in order of appearance. -/
def discriminators : List Char → List (List Char)
  | [] => []
  | c :: cs => (discriminatorAt? (c :: cs)).toList ++ discriminators cs

/-- The one field that the text names. A text that names no field, or two different ones, has
    none. -/
def discriminatorField? (text : String) : Option String :=
  match discriminators text.toList with
  | [] => none
  | field :: others => if others.all (· == field) then some (.ofList field) else none

end Typings.Text
