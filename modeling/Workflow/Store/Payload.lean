import Workflow.Store.Keys

/-!
# Payloads in the store

A payload that is shorter than the threshold is kept in its descriptor; of a longer one the
descriptor says where among the objects it is.
-/
namespace Workflow.Store
variable {σ : Type}

/-- A payload that is written, but not yet stored under its key. -/
structure Written where
  descriptor : Descriptor
  size : Nat

/-- Writes a payload and makes its descriptor, which must satisfy the schema of its format. -/
def writePayload (env : Environment σ) (ns key : String) (source : Source)
    (metadata : BinaryMetadata) : StoreAction σ Written := do
  let (head, rest) ← Attempt.look fun _ =>
    (source.takeUpTo env.inlineThreshold).mapError fun e => .object (.file e)
  let inline := head.length < env.inlineThreshold
  let descriptor :=
    if inline then Descriptor.ofInline (Base64.encodeText head) metadata
    else Descriptor.ofReference ⟨ns, key⟩ metadata
  Attempt.alter fun s => do
    let schemas ← (s.schemas.registerBinary metadata.format).mapError .validation
    return ((), { s with schemas })
  Attempt.look fun s =>
    (s.schemas.validate (Descriptor.schemaId metadata.format) descriptor.toJson).mapError
      .validation
  if inline then return ⟨descriptor, head.length⟩
  let o ← objects env
  let size ← tryOutside .object (o.save ns key (.piece head :: rest))
  return ⟨descriptor, size⟩

/-- Stores a payload under a key, and gives its descriptor. -/
def savePayload (env : Environment σ) (actor : Actor) (ns key : String) (source : Source)
    (metadata : BinaryMetadata) : StoreAction σ Descriptor := do
  let resource := (StorePath.mk ns key).resource
  authorize env actor "save_binary" resource .write
  let ⟨descriptor, size⟩ ← audited env actor "save_binary" "binary" resource
    (writePayload env ns key source metadata)
  let old := (← get).data.value? ns key
  modify fun s => s.mapData (·.write s.now ns key descriptor.toJson)
  release env old descriptor.toJson
  log env actor (writeName old) "binary" resource fun t =>
    ((t.withMeta "format" (.str metadata.format)).withMeta
      "data_location" (.str descriptor.location.name)).withMeta "size_bytes" (.nat size)
  return descriptor

def descriptorOf (path : StorePath) : Option Json → Except StoreError Descriptor
  | none => .error (.notFound path)
  | some v => do
    if !Descriptor.isMarked v then throw (.badDescriptor (.unmarked path))
    let d ← (Descriptor.decode v).mapError fun e => .badDescriptor (.unreadable e)
    if !d.isConsistent then throw (.badDescriptor (.inconsistent path))
    return d

def inlineBytes (d : Descriptor) : Except StoreError Bytes :=
  (Base64.decodeText (d.data.getD "")).mapError fun e => .badDescriptor (.badPayload e)

/-- Reads a descriptor, then the bytes that it holds or the object that it refers to. -/
def readPayload (env : Environment σ) (actor : Actor) (operation ns key : String)
    (held : Bytes → α) (referred : ObjectStore σ → StorePath → Attempt σ ObjectError α) :
    StoreAction σ α :=
  audited env actor operation "binary" (StorePath.mk ns key).resource do
    let found ← read env actor ns key
    let d ← Attempt.look fun _ => descriptorOf ⟨ns, key⟩ found
    match d.location, d.reference with
    | .referenced, some path =>
      let o ← objects env
      tryOutside .object (referred o path)
    | _, _ => Attempt.look fun _ => (inlineBytes d).map held

def loadPayload (env : Environment σ) (actor : Actor) (ns key : String) : StoreAction σ Bytes :=
  readPayload env actor "load_binary" ns key id fun o path => o.load path.ns path.key

def openPayload (env : Environment σ) (actor : Actor) (ns key : String) : StoreAction σ Source :=
  readPayload env actor "open_binary" ns key Source.ofBytes fun o path =>
    o.openSource path.ns path.key

end Workflow.Store
