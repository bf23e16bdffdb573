import Typings.Command.Run

/-! # The program

The command line on the files and streams of the computer.
-/

namespace Typings

open System (mkFilePath)

def FileError.ofIO (e : IO.Error) : FileError :=
  match e with
  | .noFileOrDirectory _ _ _ => .notFound
  | .noSuchThing _ _ _ => .notFound
  | .alreadyExists _ _ _ => .alreadyExists
  | .inappropriateType _ code _ => if code = 21 then .isADirectory else .notADirectory
  | e => .other (toString e)

def attempt {α : Type} (action : IO α) : IO (Except FileError α) := do
  match ← action.toBaseIO with
  | .ok x => return .ok x
  | .error e => return .error (.ofIO e)

instance : FileAccess IO where
  isDirectory path := (mkFilePath [path]).isDir
  list path :=
    attempt do return (← (mkFilePath [path]).readDir).toList.map (·.fileName)
  read path := attempt (IO.FS.readFile path)
  write path text := attempt (IO.FS.writeFile path text)
  createDirectory path := attempt (IO.FS.createDir path)

instance : Console IO where
  print text := do
    let out ← IO.getStdout
    out.putStr text
  printError text := do
    let err ← IO.getStderr
    err.putStr text

end Typings

def main (args : List String) : IO UInt32 := do
  return UInt32.ofNat (← Typings.runProgram args)
