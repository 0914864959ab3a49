import Workflow.Storage.Name
import Workflow.Binary.Source
import Workflow.Attempt

/-!
# Storage of objects

An object is a sequence of bytes under a key in a namespace. It is written from a source and read
through one.
-/
namespace Workflow

inductive ObjectError where
  | file (cause : FileError)
  | invalidName (name : String)
  | notFound (ns key : String)
  deriving DecidableEq, Repr, Inhabited

def ObjectError.message : ObjectError → String
  | file cause => s!"binary storage I/O error: {cause.message}"
  | invalidName name => s!"invalid storage name: '{name}'"
  | notFound ns key => s!"binary object not found: {ns}/{key}"

/-- A place for objects. Writing gives the number of bytes written. -/
structure ObjectStore (σ : Type) where
  save : String → String → Source → Attempt σ ObjectError Nat
  openSource : String → String → Attempt σ ObjectError Source
  delete : String → String → Attempt σ ObjectError Bool
  contains : String → String → σ → Bool

namespace ObjectStore

/-- A place for a part of the state as one for the whole. -/
def through (p : Part τ σ) (o : ObjectStore σ) : ObjectStore τ where
  save ns key source := p.lift (o.save ns key source)
  openSource ns key := p.lift (o.openSource ns key)
  delete ns key := p.lift (o.delete ns key)
  contains ns key t := o.contains ns key (p.get t)

def load (o : ObjectStore σ) (ns key : String) : Attempt σ ObjectError Bytes := do
  let source ← o.openSource ns key
  Attempt.look fun _ => source.drain.mapError .file

abbrev Objects := Table (Table Bytes)

def Objects.find (os : Objects) (ns key : String) : Option Bytes :=
  (os.get? ns).bind (fun t => t.get? key)

def Objects.put (os : Objects) (ns key : String) (bytes : Bytes) : Objects :=
  os.insert ns (((os.get? ns).getD .empty).insert key bytes)

def Objects.remove (os : Objects) (ns key : String) : Objects :=
  match os.get? ns with
  | some t => os.insert ns (t.erase key)
  | none => os

def memory : ObjectStore Objects where
  save ns key source := .alter fun os =>
    (source.drain.mapError .file).map (fun bytes => (bytes.length, os.put ns key bytes))
  openSource ns key := .look fun os =>
    match os.find ns key with
    | some bytes => .ok (.ofBytes bytes)
    | none => .error (.notFound ns key)
  delete ns key := .alter fun os => .ok ((os.find ns key).isSome, os.remove ns key)
  contains ns key os := (os.find ns key).isSome

/-- How many bytes are asked for at a time if nothing else is said. -/
def defaultChunk : Nat := 65536

def objectPath (root : Tree.Path) (ns key : String) :
    Except ObjectError (Tree.Path × Tree.Path) :=
  match Storage.basename? ns, Storage.basename? key with
  | some dir, some name => .ok (root ++ [dir], root ++ [dir, name])
  | some _, none => .error (.invalidName key)
  | none, _ => .error (.invalidName ns)

/-- Writes an object: its directory is made first, and the file is put in its place only when the
source has been read to the end, `chunk` bytes at a time. -/
def saveFile (root : Tree.Path) (chunk : Nat) (ns key : String) (source : Source) :
    Attempt Tree ObjectError Nat := do
  let (dir, path) ← Attempt.look fun _ => objectPath root ns key
  (Tree.createDirectories dir).mapError .file
  let bytes ← Attempt.look fun _ => (source.chunked chunk).drain.mapError .file
  Attempt.alter fun t => ((t.write path bytes).mapError .file).map ((bytes.length, ·))

/-- A source of the bytes of a file. A directory can be opened, but not read. -/
def openFile (root : Tree.Path) (chunk : Nat) (ns key : String) (t : Tree) :
    Except ObjectError Source := do
  let (_, path) ← objectPath root ns key
  match t.find path with
  | .ok (.file bytes) => return (Source.ofBytes bytes).chunked chunk
  | .ok (.directory _) => return [.failure .isDirectory]
  | .error .notFound => throw (.notFound ns key)
  | .error e => throw (.file e)

/-- Removes the file of an object, and tells whether it was there. -/
def deleteFile (root : Tree.Path) (ns key : String) (t : Tree) :
    Except ObjectError (Bool × Tree) := do
  let (_, path) ← objectPath root ns key
  (t.removeIfExists path).mapError .file

def directory (root : Tree.Path) (chunk : Nat) : ObjectStore Tree :=
  let n := if chunk = 0 then defaultChunk else chunk
  { save := saveFile root n
    openSource := fun ns key => .look (openFile root n ns key)
    delete := fun ns key => .alter (deleteFile root ns key)
    contains := fun ns key t =>
      match objectPath root ns key with
      | .ok (_, path) => t.isFile path
      | .error _ => false }

end ObjectStore
end Workflow
