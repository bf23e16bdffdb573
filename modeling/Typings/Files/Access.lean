import Typings.Files.Path

/-! # Access to files

What a program can do with files and with the streams it writes to. The operations are those of a
monad, so that a program runs on the files of a computer as well as on a tree of files that is a
value.

* `FileError`: how the access to a file fails.
* `FileAccess`, `Console`: the operations.
* `createDirectories`: creates a directory with those around it.
* `writeText`: writes a file, with the directories around it.
-/

namespace Typings

/-- How the access to a file fails. -/
inductive FileError where
  | notFound
  | notADirectory
  | isADirectory
  | alreadyExists
  /-- Something else went wrong, with the message that tells what. -/
  | other (message : String)
  deriving DecidableEq, Repr

def FileError.message : FileError → String
  | .notFound => "No such file or directory (os error 2)"
  | .notADirectory => "Not a directory (os error 20)"
  | .isADirectory => "Is a directory (os error 21)"
  | .alreadyExists => "File exists (os error 17)"
  | .other message => message

/-- The files that a program of the monad `m` works on. -/
class FileAccess (m : Type → Type) where
  /-- Whether there is a directory at the path. -/
  isDirectory : String → m Bool
  /-- The names in the directory, in any order. -/
  list : String → m (Except FileError (List String))
  /-- The text of the file. -/
  read : String → m (Except FileError String)
  /-- Gives the file the text. -/
  write : String → String → m (Except FileError Unit)
  /-- Creates the directory in one that is there. -/
  createDirectory : String → m (Except FileError Unit)

/-- The streams that a program of the monad `m` writes to. -/
class Console (m : Type → Type) where
  /-- Appends to the output. -/
  print : String → m Unit
  /-- Appends to the messages. -/
  printError : String → m Unit

instance {ε : Type} {m : Type → Type} [Monad m] [FileAccess m] : FileAccess (ExceptT ε m) where
  isDirectory path := ExceptT.lift (FileAccess.isDirectory path)
  list path := ExceptT.lift (FileAccess.list path)
  read path := ExceptT.lift (FileAccess.read path)
  write path text := ExceptT.lift (FileAccess.write path text)
  createDirectory path := ExceptT.lift (FileAccess.createDirectory path)

instance {ε : Type} {m : Type → Type} [Monad m] [Console m] : Console (ExceptT ε m) where
  print text := ExceptT.lift (Console.print text)
  printError text := ExceptT.lift (Console.printError text)

section
variable {m : Type → Type} [Monad m] [FileAccess m]

/-- Creates the directory, given the error of an attempt. An attempt to create one that is there
    counts as success. -/
def acceptDirectory (path : String) (attempt : Except FileError Unit) :
    m (Except FileError Unit) := do
  match attempt with
  | .ok () => return .ok ()
  | .error e => return if ← FileAccess.isDirectory path then .ok () else .error e

/-- Creates the first one of the directories, each of which is in the next one. -/
def createNested : List String → m (Except FileError Unit)
  | [] => return .ok ()
  | path :: outer => do
    match ← FileAccess.createDirectory path with
    | .error .notFound =>
      match ← createNested outer with
      | .error e => return .error e
      | .ok () => acceptDirectory path (← FileAccess.createDirectory path)
    | attempt => acceptDirectory path attempt

/-- Creates the directory, with those around it that are missing. -/
def createDirectories (path : String) : m (Except FileError Unit) :=
  createNested (Path.ancestors path)

/-- Why a file could not be written. -/
inductive WriteError where
  | directory (path : String) (error : FileError)
  | file (path : String) (error : FileError)
  deriving DecidableEq, Repr

def WriteError.message : WriteError → String
  | .directory path error =>
    "Failed to create output directory '" ++ path ++ "': " ++ error.message
  | .file path error => "Failed to write '" ++ path ++ "': " ++ error.message

/-- Writes the file, with the directories around it that are missing. -/
def writeText (path text : String) : m (Except WriteError Unit) := do
  let parent := (Path.parent? path).getD ""
  match ← createDirectories parent with
  | .error e => return .error (.directory parent e)
  | .ok () => return (← FileAccess.write path text).mapError (.file path)

end

end Typings
