import Workflow.Binary.Descriptor

/-!
# Formats of payloads

The name of a format, an extension or a media type, decides the category of a payload, and the
category which metadata its descriptor must have.
-/
namespace Workflow

/-- What kind of thing a payload is. -/
inductive BinaryCategory where
  | image
  | video
  | audio
  | pdf
  | other
  deriving DecidableEq, Repr, Inhabited

/-- A text with the capital letters of ASCII made small. -/
def lowercase (s : String) : String := String.ofList (s.toList.map Char.toLower)

namespace BinaryCategory

def extensions : List (BinaryCategory × List String) :=
  [(image, ["png", "jpg", "jpeg", "gif", "webp", "bmp", "tiff"]),
    (video, ["mp4", "webm", "avi", "mov", "mkv"]),
    (audio, ["mp3", "wav", "ogg", "flac", "aac", "m4a"]),
    (pdf, ["pdf"])]

def families : List (BinaryCategory × String) :=
  [(image, "image/"), (video, "video/"), (audio, "audio/")]

/-- The category of a format: that of its family, or of what comes after its last slash. -/
def ofFormat (format : String) : BinaryCategory :=
  let name := lowercase format
  let subtype := ((name.splitOn "/").getLast?).getD name
  match families.find? (fun f => f.2.toList.isPrefixOf name.toList) with
  | some f => f.1
  | none =>
    match extensions.find? (fun e => e.2.contains subtype) with
    | some e => e.1
    | none => other

/-- The metadata that descriptors of a category must have. -/
def requiredFields : BinaryCategory → List String
  | image => ["dimensions"]
  | video => ["dimensions", "duration"]
  | audio => ["sample_rate", "channels"]
  | pdf => ["pages"]
  | other => []

end BinaryCategory

namespace Descriptor

def schemaId (format : String) : String := "binary:" ++ lowercase format

/-- The members that descriptors of a format must have. -/
def requiredFields (format : String) : List String :=
  ["__type__", "format", "data_location"] ++ (BinaryCategory.ofFormat format).requiredFields

def typeSchema (name : String) : Json := .obj ⟨[("type", .str name)]⟩

def integerSchema (least : Int) : Json :=
  .obj ⟨[("minimum", .int least), ("type", .str "integer")]⟩

def namesJson (names : List String) : Json := .arr (names.map .str)

/-- A schema for objects that must have some members, with schemas for them. -/
def objectSchema (members : List (String × Json)) : Json :=
  .obj ⟨[("properties", .obj ⟨members⟩), ("required", namesJson (members.map (·.1)).reverse),
    ("type", .str "object")]⟩

/-- What descriptors with one location must have and must not have. -/
def locationSchema (location : DataLocation) (needed : List String) (unwanted : String) : Json :=
  .obj ⟨[
    ("not", .obj ⟨[("required", namesJson [unwanted])]⟩),
    ("properties", .obj ⟨[("data_location", .obj ⟨[("const", .str location.name)]⟩)]⟩),
    ("required", namesJson needed)]⟩

def schema (format : String) : Json :=
  .obj ⟨[
    ("oneOf", .arr [
      locationSchema .inline ["data", "encoding"] "storage_reference",
      locationSchema .referenced ["storage_reference"] "data"]),
    ("properties", .obj ⟨[
      ("__type__", .obj ⟨[("const", .str typeMarker)]⟩),
      ("channels", integerSchema 1),
      ("data", typeSchema "string"),
      ("data_location", .obj ⟨[("enum", namesJson ["inline", "referenced"])]⟩),
      ("dimensions", objectSchema [("height", integerSchema 0), ("width", integerSchema 0)]),
      ("duration", .obj ⟨[("minimum", .int 0), ("type", .str "number")]⟩),
      ("encoding", typeSchema "string"),
      ("format", .obj ⟨[("minLength", .int 1), ("type", .str "string")]⟩),
      ("pages", integerSchema 1),
      ("sample_rate", integerSchema 1),
      ("storage_reference",
        objectSchema [("key", typeSchema "string"), ("namespace", typeSchema "string")])]⟩),
    ("required", namesJson (requiredFields format)),
    ("type", .str "object")]⟩

end Descriptor
end Workflow
