import Workflow.Command.Perform
import Workflow.Files.Tree
import Std.Time.DateTime.Timestamp

/-!
# The program

The program makes a picture of the files that its arguments and settings speak of, performs the
command on it, and then makes the files like the picture.
-/
namespace Workflow.Command

def place (path : Tree.Path) := System.mkFilePath ("/" :: path)

def readBytes (path : Tree.Path) : IO Bytes :=
  return (← IO.FS.readBinFile (place path)).toList

def readDirectory : Nat → Tree.Path → IO Tree
  | 0, _ => return .empty
  | depth + 1, path => do
    let mut entries := Table.empty
    for entry in ← (place path).readDir do
      let inner := path ++ [entry.fileName]
      if ← (place inner).isDir then
        entries := entries.insert entry.fileName (← readDirectory depth inner)
      else
        entries := entries.insert entry.fileName (.file (← readBytes inner))
    return .directory entries

def maxDirectories : Nat := 64

/-- Adds to a picture what is on the way to a path, and at its end. -/
def addPath (t : Tree) (path : Tree.Path) : IO Tree := do
  let mut t := t
  for n in List.range (path.length + 1) do
    let way := path.take n
    if ← (place way).isDir then
      t := (Tree.createDirectories way t).2
    else if ← (place way).pathExists then
      t := (t.write way (← readBytes way)).toOption.getD t
  if ← (place path).isDir then
    let inside ← readDirectory maxDirectories path
    t := (t.alter (fun _ => .ok (some inside)) path).toOption.getD t
  return t

def addNames (directory : Tree.Path) (names : List String) (t : Tree) : IO Tree :=
  names.foldlM (fun t name => addPath t (Tree.resolve directory name)) t

/-- The picture of the files that arguments and settings speak of. -/
def takePicture (s : Surroundings) (args : List String) : IO Tree := do
  match Request.ofArguments s.configVariable args with
  | .invocation i =>
    let t ← addNames s.directory i.files .empty
    match settings s i.config t with
    | .ok c => addNames s.directory (storageFiles c) t
    | .error _ => return t
  | _ => return .empty

def apply : Change → IO Unit
  | .removeFile path => IO.FS.removeFile (place path)
  | .removeDirectory path => IO.FS.removeDir (place path)
  | .createDirectory path => IO.FS.createDirAll (place path)
  | .write path content => IO.FS.writeBinFile (place path) ⟨content.toArray⟩

def lookAround : IO Surroundings := do
  let directory := (← IO.currentDir).toString.splitOn "/"
  let now ← Std.Time.Timestamp.now
  return {
    directory := directory.filter (· ≠ "")
    configVariable := ← IO.getEnv configVariableName
    now := ⟨now.toNanosecondsSinceUnixEpoch.val⟩ }

/-- Does what the arguments ask for, and gives the exit code. -/
def runProgram (args : List String) : IO UInt32 := do
  let s ← lookAround
  let before ← takePicture s args
  let (outcome, after) := perform s args before
  (Change.between before after).forM apply
  IO.print outcome.output
  IO.eprint outcome.diagnostics
  return outcome.code.toUInt32

end Workflow.Command

def main (args : List String) : IO UInt32 := Workflow.Command.runProgram args
