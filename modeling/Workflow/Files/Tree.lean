import Workflow.Table
import Workflow.Attempt
import Workflow.Text.Utf8

/-!
# Trees of files

A directory holds files and directories under their names. Everything that is done to files goes
through `Tree.find`, `Tree.alter` and `Tree.createDirectories`, which follow a path one name at a
time and fail where it does not lead on.
-/
namespace Workflow

inductive FileError where
  | notFound
  | alreadyExists
  | notDirectory
  | isDirectory
  | nameTooLong
  | notEmpty
  | badName
  | notText
  | device (cause : String)
  deriving DecidableEq, Repr, Inhabited

def FileError.message : FileError → String
  | notFound => "No such file or directory (os error 2)"
  | alreadyExists => "File exists (os error 17)"
  | notDirectory => "Not a directory (os error 20)"
  | isDirectory => "Is a directory (os error 21)"
  | nameTooLong => "File name too long (os error 36)"
  | notEmpty => "Directory not empty (os error 39)"
  | badName => "file name contained an unexpected NUL byte"
  | notText => "stream did not contain valid UTF-8"
  | device cause => cause

/-- A file or a directory. -/
inductive Tree where
  | file (content : Bytes)
  | directory (entries : Table Tree)
  deriving Inhabited

namespace Tree

def empty : Tree := .directory .empty

abbrev Path := List String

/-- A path with one more name, where one dot stands for nothing and two lead back. -/
def extend (path : Path) (name : String) : Path :=
  if name = "" ∨ name = "." then path
  else if name = ".." then path.dropLast
  else path ++ [name]

/-- The path that a text means in a directory. A slash at the start leads to the outermost one. -/
def resolve (directory : Path) (text : String) : Path :=
  (text.splitOn "/").foldl extend (if text.startsWith "/" then [] else directory)

def maxName : Nat := 255

/-- Whether names can be those of files at all. Paths with others are refused before any directory
is looked at. -/
def checkPath (path : Path) : Except FileError Unit :=
  if path.any (fun name => name.toList.contains '\x00') then .error .badName else .ok ()

/-- Whether a name is short enough to stand in a directory. -/
def checkName (name : String) : Except FileError Unit :=
  if maxName < name.utf8ByteSize then .error .nameTooLong else .ok ()

/-- What a path leads to, one name at a time. -/
def follow : Path → Tree → Except FileError Tree
  | [], t => .ok t
  | _ :: _, .file _ => .error .notDirectory
  | name :: rest, .directory entries => do
    checkName name
    match entries.get? name with
    | some t => follow rest t
    | none => throw .notFound

def find (path : Path) (t : Tree) : Except FileError Tree := do
  checkPath path
  t.follow path

/-- Replaces what is at the end of a path, one name at a time. -/
def alterAt (f : Option Tree → Except FileError (Option Tree)) : Path → Tree → Except FileError Tree
  | [], t => do
    match ← f (some t) with
    | some t => return t
    | none => throw .isDirectory
  | _ :: _, .file _ => .error .notDirectory
  | [name], .directory entries => do
    checkName name
    match ← f (entries.get? name) with
    | some t => return .directory (entries.insert name t)
    | none => return .directory (entries.erase name)
  | name :: rest, .directory entries => do
    checkName name
    match entries.get? name with
    | some t => return .directory (entries.insert name (← alterAt f rest t))
    | none => throw .notFound

/-- Replaces what is at the end of a path, whose directories must be there. Nothing stands for
something that is not there. -/
def alter (f : Option Tree → Except FileError (Option Tree)) (path : Path) (t : Tree) :
    Except FileError Tree := do
  checkPath path
  t.alterAt f path

def isFile (path : Path) (t : Tree) : Bool :=
  match t.find path with
  | .ok (.file _) => true
  | _ => false

def isDirectory (path : Path) (t : Tree) : Bool :=
  match t.find path with
  | .ok (.directory _) => true
  | _ => false

def read (path : Path) (t : Tree) : Except FileError Bytes := do
  match ← t.find path with
  | .file content => return content
  | .directory _ => throw .isDirectory

def readText (path : Path) (t : Tree) : Except FileError String := do
  match Text.ofUtf8? (← t.read path) with
  | some s => return s
  | none => throw .notText

def list (path : Path) (t : Tree) : Except FileError (Table Tree) := do
  match ← t.find path with
  | .file _ => throw .notDirectory
  | .directory entries => return entries

/-- Puts a file in its place at once, over a file that is there already. -/
def write (path : Path) (content : Bytes) (t : Tree) : Except FileError Tree :=
  t.alter (fun
    | some (.directory _) => .error .isDirectory
    | _ => .ok (some (.file content))) path

/-- Creates the directories of a path that are not there, one after the other. Those before a name
that cannot be one are created. -/
def createAt : Path → Tree → Except FileError Unit × Tree
  | [], t => (.ok (), t)
  | _ :: _, .file content => (.error .notDirectory, .file content)
  | name :: rest, .directory entries =>
    match checkName name, entries.get? name, rest with
    | .error e, _, _ => (.error e, .directory entries)
    | .ok _, some (.file _), [] => (.error .alreadyExists, .directory entries)
    | .ok _, found, rest =>
      let (r, t) := createAt rest (found.getD empty)
      (r, .directory (entries.insert name t))

def createDirectories (path : Path) : Attempt Tree FileError Unit := fun t =>
  match checkPath path with
  | .ok _ => t.createAt path
  | .error e => (.error e, t)

def remove (path : Path) (t : Tree) : Except FileError Tree :=
  t.alter (fun
    | some (.file _) => .ok none
    | some (.directory _) => .error .isDirectory
    | none => .error .notFound) path

def removeIfExists (path : Path) (t : Tree) : Except FileError (Bool × Tree) :=
  match t.remove path with
  | .ok t => .ok (true, t)
  | .error .notFound => .ok (false, t)
  | .error e => .error e

def removeDirectory (path : Path) (t : Tree) : Except FileError Tree :=
  t.alter (fun
    | some (.directory entries) => if entries.isEmpty then .ok none else .error .notEmpty
    | some (.file _) => .error .notDirectory
    | none => .error .notFound) path

mutual

/-- Every file and directory of a tree by its path, a directory before what it holds. -/
def walk (path : Path) : Tree → List (Path × Option Bytes)
  | .file content => [(path, some content)]
  | .directory ⟨entries⟩ => (path, none) :: walkEntries path entries

/-- Every file and directory below the entries of a directory. -/
def walkEntries (path : Path) : List (String × Tree) → List (Path × Option Bytes)
  | [] => []
  | (name, t) :: rest => walk (path ++ [name]) t ++ walkEntries path rest

end

end Tree

/-- A step on the way from one tree to another. First what is gone is removed, from the inside out,
then directories are created from the outside in and files are written. -/
inductive Change where
  | removeFile (path : Tree.Path)
  | removeDirectory (path : Tree.Path)
  | createDirectory (path : Tree.Path)
  | write (path : Tree.Path) (content : Bytes)
  deriving DecidableEq, Repr, Inhabited

namespace Change

/-- The step that removes what was at a path, unless something of its kind is still there. -/
def removal (after : Tree) : Tree.Path × Option Bytes → Option Change
  | (path, some _) => if after.isFile path then none else some (removeFile path)
  | (path, none) => if after.isDirectory path then none else some (removeDirectory path)

/-- The step that makes what is at a path, unless it was there already. -/
def creation (before : Tree) : Tree.Path × Option Bytes → Option Change
  | (path, some content) =>
    if (before.read path).toOption = some content then none else some (write path content)
  | (path, none) => if before.isDirectory path then none else some (createDirectory path)

def between (before after : Tree) : List Change :=
  ((before.walk []).reverse.filterMap (removal after))
    ++ (after.walk []).filterMap (creation before)

end Change
end Workflow
