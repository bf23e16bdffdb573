/-! # Paths

The parts of a path: pieces between slashes.

* `Path.pieces`: all pieces in order.
* `Path.name?`, `Path.extension?`: the last piece, and what follows its last dot.
* `Path.parent?`, `Path.ancestors`: the path of the directory around, and of all directories around.
* `Path.join`: the path of a file in a directory.
-/

namespace Typings.Path

def piecesOf : List Char → List (List Char)
  | [] => [[]]
  | c :: cs =>
    match piecesOf cs with
    | [] => [[c]]
    | piece :: pieces => if c = '/' then [] :: piece :: pieces else (c :: piece) :: pieces

def pieces (path : String) : List String :=
  (piecesOf path.toList).map .ofList

/-- A path from its end on, without what adds nothing to it there: slashes, and single dots behind
    them. -/
def trimEnd : List Char → List Char
  | '/' :: c :: cs => trimEnd (c :: cs)
  | '.' :: '/' :: cs => trimEnd ('/' :: cs)
  | cs => cs

/-- The path from its end on, up to the slash in front of its last piece. -/
def ending (path : String) : List Char × List Char :=
  let cs := trimEnd path.toList.reverse
  (cs.takeWhile (· ≠ '/'), cs.dropWhile (· ≠ '/'))

def name? (path : String) : Option String :=
  let piece := (ending path).1
  if piece = [] ∨ piece = ['.'] ∨ piece = ['.', '.'] then none else some (.ofList piece.reverse)

/-- The extension of the name: what follows its last dot. A dot at the start of a name starts no
    extension. -/
def extension? (path : String) : Option String :=
  (name? path).bind fun name =>
    let cs := name.toList.reverse
    match cs.dropWhile (· ≠ '.') with
    | _ :: _ :: _ => some (.ofList (cs.takeWhile (· ≠ '.')).reverse)
    | _ => none

/-- The path of the directory around; it is empty for a lone name. -/
def parent? (path : String) : Option String :=
  match ending path with
  | ([], _) => none
  | (_ :: _, rest) => some (.ofList (trimEnd rest).reverse)

/-- The path and those of the directories around it, each one around the one before; `fuel` bounds
    their number. -/
def ancestorsFrom (fuel : Nat) (path : String) : List String :=
  match fuel with
  | 0 => []
  | fuel + 1 =>
    if path.isEmpty then []
    else
      match parent? path with
      | none => [path]
      | some parent => path :: ancestorsFrom fuel parent

def ancestors (path : String) : List String :=
  ancestorsFrom (path.length + 1) path

def join (directory name : String) : String :=
  if directory.isEmpty || directory.endsWith "/" then directory ++ name
  else directory ++ "/" ++ name

end Typings.Path
