import Typings.Text.Blank

/-! # Documentation texts

The text of a documentation comment, put together from its parts.

* `Documentation`: the parts.
* `Documentation.blocks`: the paragraphs that the parts make; blank parts make none.
* `Documentation.render`: the paragraphs with an empty line between each two, or nothing.
-/

namespace Typings.Text

structure Documentation where
  description : String := ""
  notes : List String := []
  examples : List String := []
  /-- The page that describes the subject. -/
  see : Option String := none

namespace Documentation

/-- A text as a paragraph after `opening`, without the white space at its ends. -/
def block (opening : String) (text : String) : Option String :=
  if (trim text).isEmpty then none else some (opening ++ trim text)

/-- The paragraphs of the comment: description, notes, examples and the page. -/
def blocks (parts : Documentation) : List String :=
  (block "" parts.description).toList
    ++ parts.notes.filterMap (block "**Note:** ")
    ++ parts.examples.filterMap (block "@example\n")
    ++ (parts.see.map ("@see " ++ ·)).toList

/-- The text of the comment; none when every part is blank. -/
def render (parts : Documentation) : Option String :=
  match parts.blocks with
  | [] => none
  | blocks => some ("\n\n".intercalate blocks)

end Documentation

end Typings.Text
