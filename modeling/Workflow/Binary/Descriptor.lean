import Workflow.Store.Path

/-!
# Descriptors of binary payloads

A payload is described by a record that is stored like any other value. The record holds a short
payload itself, as text; of a longer one it says where the bytes are.
-/
namespace Workflow

structure Dimensions where
  width : Nat
  height : Nat
  deriving DecidableEq, Repr, Inhabited

namespace Dimensions

def record : Record Dimensions :=
  Dimensions.mk <$> .required "width" .word32 <*> .required "height" .word32

def toJson (d : Dimensions) : Json := .mkObj [("width", .nat d.width), ("height", .nat d.height)]

end Dimensions

structure BinaryMetadata where
  format : String
  duration : Option Float
  sampleRate : Option Nat
  channels : Option Nat
  dimensions : Option Dimensions
  pages : Option Nat
  deriving Inhabited

namespace BinaryMetadata

def record : Record BinaryMetadata :=
  BinaryMetadata.mk <$> .required "format" .text <*> .optional "duration" .float
    <*> .optional "sample_rate" .word32 <*> .optional "channels" .word16
    <*> .optional "dimensions" (Dimensions.record.decode "struct Dimensions")
    <*> .optional "pages" .word32

def decode : Decoder BinaryMetadata := record.decode "struct BinaryMetadata"

/-- A duration as JSON; one that is no finite number is null. -/
def durationJson (x : Float) : Json := (Json.ofFloat? x).getD .null

def fields (m : BinaryMetadata) : List (String × Option Json) :=
  [("format", some (.str m.format)), ("duration", m.duration.map durationJson),
    ("sample_rate", m.sampleRate.map Json.nat), ("channels", m.channels.map Json.nat),
    ("dimensions", m.dimensions.map Dimensions.toJson), ("pages", m.pages.map Json.nat)]

def toJson (m : BinaryMetadata) : Json := .ofFields m.fields

end BinaryMetadata

inductive DataLocation where
  | inline
  | referenced
  deriving DecidableEq, Repr, Inhabited

namespace DataLocation

def known : List (String × DataLocation) := [("inline", inline), ("referenced", referenced)]

def name : DataLocation → String
  | inline => "inline"
  | referenced => "referenced"

end DataLocation

/-- The record of a payload. -/
structure Descriptor where
  marker : String
  location : DataLocation
  encoding : Option String
  data : Option String
  reference : Option StorePath
  metadata : BinaryMetadata
  deriving Inhabited

namespace Descriptor

def typeMarker : String := "binary"

def inlineEncoding : String := "base64"

/-- The descriptor of a payload that it holds itself. -/
def ofInline (data : String) (metadata : BinaryMetadata) : Descriptor :=
  ⟨typeMarker, .inline, some inlineEncoding, some data, none, metadata⟩

def ofReference (reference : StorePath) (metadata : BinaryMetadata) : Descriptor :=
  ⟨typeMarker, .referenced, none, none, some reference, metadata⟩

def isConsistent (d : Descriptor) : Bool :=
  match d.location with
  | .inline => d.data.isSome && d.encoding.isSome && d.reference.isNone
  | .referenced => d.reference.isSome && d.data.isNone

def isMarked (v : Json) : Bool := (v.get? "__type__").bind Json.str? == some typeMarker

def record : Record (BinaryMetadata → Descriptor) :=
  Descriptor.mk <$> .required "__type__" .text
    <*> .required "data_location" (.choice DataLocation.known)
    <*> .optional "encoding" .text <*> .optional "data" .text
    <*> .optional "storage_reference" (StorePath.record.decode "struct StorageReference")

/-- Reads a descriptor. Its metadata stand beside its other fields. -/
def decode : Decoder Descriptor
  | .obj t => do
    let build ← record.ofTable t
    let metadata ← BinaryMetadata.record.ofTable (record.others t)
    return build metadata
  | v => .error (.wrongType v "struct BinaryDescriptor")

def toJson (d : Descriptor) : Json :=
  .ofFields
    ([("__type__", some (.str d.marker)), ("data_location", some (.str d.location.name)),
      ("encoding", d.encoding.map .str), ("data", d.data.map .str),
      ("storage_reference", d.reference.map StorePath.toJson)]
      ++ d.metadata.fields)

/-- The place of the bytes that a value refers to, if it is a descriptor that does. -/
def referenceOf (v : Json) : Option StorePath :=
  if !isMarked v then none
  else
    match decode v with
    | .ok d => if d.location = .referenced then d.reference else none
    | .error _ => none

end Descriptor
end Workflow
