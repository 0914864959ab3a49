import Workflow.Storage.Backend
import Workflow.Storage.Name
import Workflow.Json.Record
import Workflow.Json.Reader
import Workflow.Json.Printer

/-!
# Values in files

Each namespace is a directory and each key a file in it, named so that different texts never meet.
A file repeats the key next to the value, and a marker in the directory repeats the namespace, so
that the names that were given can be listed again.
-/
namespace Workflow.Storage

/-- The name of the file that tells the namespace of its directory. -/
def markerName : String := "_namespace"

/-- The end of the names of files that hold values. -/
def extension : String := ".json"

def storedRecord : Record (String × Json) :=
  Prod.mk <$> .required "key" .text <*> .required "value" .any

def markerRecord : Record String := .required "namespace" .text

def spacePath (root : Tree.Path) (ns : String) : Except PersistenceError Tree.Path :=
  match storageName? ns with
  | some name => .ok (root ++ [name])
  | none => .error (.invalidName ns)

/-- The file of a key. The name of the key is looked at before that of the namespace. -/
def keyPath (root : Tree.Path) (ns key : String) : Except PersistenceError Tree.Path :=
  match storageName? key with
  | some name => (spacePath root ns).map (fun path => path ++ [name ++ extension])
  | none => .error (.invalidName key)

/-- What happens to files, as it happens to stored values. -/
def onFiles (r : Except FileError α) : Except PersistenceError α := r.mapError .file

def readFile (r : Decoder α) (path : Tree.Path) (t : Tree) :
    Except PersistenceError (Option α) := do
  match t.read path with
  | .error .notFound => return none
  | .error e => throw (.file e)
  | .ok bytes =>
    match (Text.ofUtf8? bytes).bind Json.read? with
    | some v => (r v).toOption.elim (throw .serialization) (fun a => return some a)
    | none => throw .serialization

/-- Whether a file with this name holds a value: the name goes on after a first character that is
not the dot before the extension. -/
def isValueName (name : String) : Bool :=
  let cs := name.toList.reverse
  extension.toList.reverse.isPrefixOf cs && extension.length < cs.length

/-- The names of the files of a directory that hold values, none if it is not there. -/
def valueFiles (path : Tree.Path) (t : Tree) : Except PersistenceError (List String) := do
  match t.list path with
  | .error .notFound => return []
  | .error e => throw (.file e)
  | .ok entries =>
    return (entries.entries.filter (fun e =>
      match e.2 with
      | .file _ => isValueName e.1
      | .directory _ => false)).map (·.1)

def writeFile (path : Tree.Path) (v : List (String × Json)) (t : Tree) :
    Except PersistenceError Tree :=
  onFiles (t.write path (Text.utf8 (Json.obj ⟨v⟩).pretty))

/-- Saves a value. What was done before a failure is not undone. -/
def saveValue (root : Tree.Path) (ns key : String) (v : Json) :
    Attempt Tree PersistenceError Unit := do
  let path ← Attempt.look fun _ => keyPath root ns key
  let dir ← Attempt.look fun _ => spacePath root ns
  (Tree.createDirectories dir).mapError .file
  Attempt.alter fun t =>
    if t.isFile (dir ++ [markerName]) then .ok ((), t)
    else (writeFile (dir ++ [markerName]) [("namespace", .str ns)] t).map (((), ·))
  Attempt.alter fun t => (writeFile path [("key", .str key), ("value", v)] t).map (((), ·))

def readValues (dir : Tree.Path) (t : Tree) :
    List String → Table Json → Except PersistenceError (Table Json)
  | [], values => .ok values
  | name :: rest, values => do
    match ← readFile (storedRecord.decode "struct StoredValue") (dir ++ [name]) t with
    | some (k, v) => readValues dir t rest (values.insert k v)
    | none => readValues dir t rest values

def loadValue (root : Tree.Path) (ns : String) (key : Option String) (t : Tree) :
    Except PersistenceError (Option Json) := do
  match key with
  | some k =>
    let path ← keyPath root ns k
    return (← readFile (storedRecord.decode "struct StoredValue") path t).map (·.2)
  | none =>
    let dir ← spacePath root ns
    if !t.isDirectory dir then return none
    let names ← valueFiles dir t
    return some (.obj (← readValues dir t names .empty))

def removeFiles (dir : Tree.Path) : List String → Attempt Tree PersistenceError Bool
  | [] => return false
  | name :: rest => do
    let removed ← Attempt.alter fun t => onFiles (t.removeIfExists (dir ++ [name]))
    let others ← removeFiles dir rest
    return removed || others

/-- Removes the directory of a namespace if nothing is left in it. -/
def removeSpace (dir : Tree.Path) : Attempt Tree PersistenceError Bool :=
  Attempt.alter fun t =>
    match t.removeDirectory dir with
    | .ok t => .ok (true, t)
    | .error _ => .ok (false, t)

def deleteValue (root : Tree.Path) (ns : String) (key : Option String) :
    Attempt Tree PersistenceError Bool := do
  match key with
  | some k =>
    let path ← Attempt.look fun _ => keyPath root ns k
    Attempt.alter fun t => onFiles (t.removeIfExists path)
  | none =>
    let dir ← Attempt.look fun _ => spacePath root ns
    let names ← Attempt.look fun t => valueFiles dir t
    let removed ← removeFiles dir names
    let _ ← removeFiles dir [markerName]
    let gone ← removeSpace dir
    return removed || gone

def readMarkers (root : Tree.Path) (t : Tree) :
    List (String × Tree) → Except PersistenceError (List String)
  | [] => .ok []
  | (_, .file _) :: rest => readMarkers root t rest
  | (name, .directory _) :: rest => do
    let found ← readFile (markerRecord.decode "struct NamespaceMarker")
      (root ++ [name, markerName]) t
    let others ← readMarkers root t rest
    return found.toList ++ others

def sortTexts (ts : List String) : List String := ts.mergeSort (fun a b => a ≤ b)

def listSpaces (root : Tree.Path) (t : Tree) : Except PersistenceError (List String) :=
  match t.list root with
  | .error .notFound => .ok []
  | .error e => .error (.file e)
  | .ok entries => (readMarkers root t entries.entries).map sortTexts

def directory (root : Tree.Path) : Backend Tree where
  save := saveValue root
  load ns key := .look (loadValue root ns key)
  delete := deleteValue root
  namespaces := .look (listSpaces root)

end Workflow.Storage
