import Workflow.Schema.Reader

/-!
# The schema of pipeline documents

What a document must look like before it is read: the types of all fields, the fields that each type
of step needs, and the form of paths into the store.
-/
namespace Workflow.PipelineDocument

def typed (name : String) : Json := .obj ⟨[("type", .str name)]⟩

def nonEmptyText : Json := .obj ⟨[("minLength", .int 1), ("type", .str "string")]⟩

def oneText (options : List String) : Json := .obj ⟨[("enum", .arr (options.map .str))]⟩

def listOf (definition : String) : Json :=
  .obj ⟨[("items", .obj ⟨[("$ref", .str ("#/$defs/" ++ definition))]⟩), ("type", .str "array")]⟩

/-- That a step of some type has certain fields. -/
def needs (type : Json) (fields : List String) : Json :=
  .obj ⟨[
    ("if", .obj ⟨[("properties", .obj ⟨[("type", type)]⟩), ("required", .arr [.str "type"])]⟩),
    ("then", .obj ⟨[("required", .arr (fields.map .str))]⟩)]⟩

def ofType (name : String) : Json := .obj ⟨[("const", .str name)]⟩

def pipelineSchema : Json :=
  .obj ⟨[
    ("properties", .obj ⟨[
      ("description", typed "string"),
      ("enabled", typed "boolean"),
      ("execution_mode", oneText ["sequential"]),
      ("name", nonEmptyText),
      ("schedule", typed "string"),
      ("steps", listOf "step")]⟩),
    ("required", .arr [.str "name", .str "steps"]),
    ("type", .str "object")]⟩

/-- A path: a namespace without a dot, a dot, and a key. -/
def pathPattern : String := "^[^.]+\\..+$"

def stepSchema : Json :=
  .obj ⟨[
    ("allOf", .arr [
      needs (ofType "conditional") ["condition"],
      needs (ofType "jump") ["target"],
      needs (oneText ["set_context", "append_context"]) ["path", "value"],
      needs (ofType "load_context") ["path"],
      needs (ofType "save_context") ["source", "path"],
      needs (ofType "context_operation") ["operation"]]),
    ("properties", .obj ⟨[
      ("condition", nonEmptyText),
      ("config", typed "object"),
      ("description", typed "string"),
      ("destination", typed "string"),
      ("input_key", typed "string"),
      ("iterate", nonEmptyText),
      ("key", typed "string"),
      ("name", nonEmptyText),
      ("namespace", nonEmptyText),
      ("operation", oneText ["merge", "snapshot", "restore", "delete", "save_to_storage",
        "load_from_storage", "delete_from_storage"]),
      ("output_key", typed "string"),
      ("path", .obj ⟨[("pattern", .str pathPattern), ("type", .str "string")]⟩),
      ("plugin", nonEmptyText),
      ("source", nonEmptyText),
      ("steps", listOf "step"),
      ("strategy", oneText ["overwrite", "keep", "merge"]),
      ("target", nonEmptyText),
      ("type", oneText ["plugin", "conditional", "jump", "set_context", "load_context",
        "append_context", "save_context", "context_operation", "break", "continue"]),
      ("values", typed "object")]⟩),
    ("required", .arr [.str "name"]),
    ("type", .str "object")]⟩

def schema : Json :=
  .obj ⟨[
    ("$defs", .obj ⟨[("pipeline", pipelineSchema), ("step", stepSchema)]⟩),
    ("properties", .obj ⟨[("pipelines", listOf "pipeline")]⟩),
    ("required", .arr [.str "pipelines"]),
    ("type", .str "object")]⟩

end Workflow.PipelineDocument
