import Typings.Files.Access

/-! # Trees of files

Files and directories as a value. A path with a slash in front starts at the top, which has nothing
above it, and any other path starts at the working directory.

* `FileTree`, `FileTree.node?`: what stands at which place.
* `FileTree.locate`: the place that a path leads to.
* `FileTree.read`, `FileTree.list`, `FileTree.write`, `FileTree.createDirectory`: the operations.
* `Stage`: a tree with the streams of a program; the programs of `StateM Stage` work on it.
-/

namespace Typings

/-- What stands at a place: a file with its text, or a directory. -/
inductive FileNode where
  | file (text : String)
  | directory
  deriving DecidableEq, Repr

/-- Files and directories by their places: the names from the top down. -/
structure FileTree where
  nodes : List (List String × FileNode) := []
  workingDirectory : List String := []

namespace FileTree

def node? (tree : FileTree) (place : List String) : Option FileNode :=
  if place.isEmpty then some .directory else tree.nodes.lookup place

/-- The places with what stands there, with the node put at the place. -/
def putNode (place : List String) (node : FileNode) :
    List (List String × FileNode) → List (List String × FileNode)
  | [] => [(place, node)]
  | entry :: entries =>
    if entry.1 = place then (place, node) :: entries else entry :: putNode place node entries

def put (tree : FileTree) (place : List String) (node : FileNode) : FileTree :=
  { tree with nodes := putNode place node tree.nodes }

/-- The place that the pieces of a path lead to from a place. Every piece but the last one must lead
    to a directory. -/
def walk (tree : FileTree) (place : List String) : List String → Except FileError (List String)
  | [] => .ok place
  | piece :: pieces =>
    match tree.node? place with
    | none => .error .notFound
    | some (.file _) => .error .notADirectory
    | some .directory =>
      if piece = "" ∨ piece = "." then tree.walk place pieces
      else if piece = ".." then tree.walk place.dropLast pieces
      else tree.walk (place ++ [piece]) pieces

def start (tree : FileTree) (path : String) : List String :=
  if path.startsWith "/" then [] else tree.workingDirectory

/-- The place that a path leads to; nothing needs to stand there. -/
def locate (tree : FileTree) (path : String) : Except FileError (List String) :=
  if path.isEmpty then .error .notFound else tree.walk (tree.start path) (Path.pieces path)

/-- The place that a path leads to, whether or not it ends with slashes. -/
def locateNew (tree : FileTree) (path : String) : Except FileError (List String) :=
  let bare : String := .ofList (path.toList.reverse.dropWhile (· == '/')).reverse
  if path.isEmpty then .error .notFound else tree.walk (tree.start path) (Path.pieces bare)

def isDirectory (tree : FileTree) (path : String) : Bool :=
  match tree.locate path with
  | .ok place => tree.node? place == some .directory
  | .error _ => false

def read (tree : FileTree) (path : String) : Except FileError String := do
  let place ← tree.locate path
  match tree.node? place with
  | none => .error .notFound
  | some .directory => .error .isADirectory
  | some (.file text) => return text

def names (tree : FileTree) (place : List String) : List String :=
  tree.nodes.filterMap fun (path, _) =>
    if path.dropLast = place then path.getLast? else none

def list (tree : FileTree) (path : String) : Except FileError (List String) := do
  let place ← tree.locate path
  match tree.node? place with
  | none => .error .notFound
  | some (.file _) => .error .notADirectory
  | some .directory => return tree.names place

/-- The tree with the text in the file at the path. -/
def write (tree : FileTree) (path text : String) : Except FileError FileTree := do
  let place ← tree.locateNew path
  if path.endsWith "/" || tree.node? place == some .directory then .error .isADirectory
  else return tree.put place (.file text)

def createDirectory (tree : FileTree) (path : String) : Except FileError FileTree := do
  let place ← tree.locateNew path
  match tree.node? place with
  | some _ => .error .alreadyExists
  | none => return tree.put place .directory

end FileTree

/-! ## Programs on a tree -/

/-- A tree with what a program has written to its streams. -/
structure Stage where
  tree : FileTree := {}
  output : String := ""
  messages : String := ""

namespace Stage

def change (f : FileTree → Except FileError FileTree) : StateM Stage (Except FileError Unit) :=
  fun stage =>
    match f stage.tree with
    | .ok tree => (.ok (), { stage with tree })
    | .error e => (.error e, stage)

instance : FileAccess (StateM Stage) where
  isDirectory path := return (← get).tree.isDirectory path
  list path := return (← get).tree.list path
  read path := return (← get).tree.read path
  write path text := change (·.write path text)
  createDirectory path := change (·.createDirectory path)

instance : Console (StateM Stage) where
  print text := modify fun stage => { stage with output := stage.output ++ text }
  printError text := modify fun stage => { stage with messages := stage.messages ++ text }

end Stage

end Typings
