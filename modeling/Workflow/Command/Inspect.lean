import Workflow.Command.Report

/-!
# Looking at a document without running it

One command checks a document, another shows its control graph.
-/
namespace Workflow.Command

def marked (mark text : String) : String := "  " ++ mark ++ " " ++ text ++ "\n"

def markedAll (mark : String) (texts : List String) : String :=
  String.join (texts.map (marked mark))

def wayText (nodes : List String) : String := " -> ".intercalate nodes

def rulesIn (files : Tree) (directory : Tree.Path) : Option String → Except Failure SchemaDocument
  | none => (PipelineDocument.schemaOf PipelineDocument.schema).mapError .ofLoad
  | some file => do
    let text ← (files.readText (Tree.resolve directory file)).mapError
      (.ofFile s!"Failed to read schema {file}")
    match Json.read? text with
    | some v => (PipelineDocument.schemaOf v).mapError .ofLoad
    | none => throw ⟨"Schema is not valid JSON", []⟩

def structureReport (file : String) (d : PipelineDocument) : Report :=
  let g := ControlGraph.ofDocument d
  let flaws := markedAll "x" (g.errors.map GraphError.message)
  let cycles := markedAll "!"
    (g.cycles.map fun c => s!"cycle: {wayText c} (bounded by executor.max_jumps)")
  let steps := d.pipelines.foldr (fun p sum => Step.countAll p.steps + sum) 0
  if g.errors.isEmpty then
    .done ("\n" ++ cycles
      ++ marked "*" s!"{file} is valid: {d.pipelines.length} pipeline(s), {steps} step(s)"
      ++ "\n") ""
  else
    .failed ("\n" ++ flaws ++ cycles ++ "\n")
      ⟨s!"{g.errors.length} structural error(s) in {file}", []⟩

/-- Checks a document against a schema, and its structure. -/
def validate (files : Tree) (directory : Tree.Path) (file : String) (schema : Option String) :
    Report :=
  .ofExcept do
    let text ← (files.readText (Tree.resolve directory file)).mapError
      (.ofFile s!"Failed to read {file}")
    let rules ← rulesIn files directory schema
    match Yaml.read? text with
    | none => throw (.ofLoad .malformed)
    | some v =>
      let found := rules.violations v
      if !found.isEmpty then
        return .failed ("\n" ++ markedAll "x" (found.map Violation.display) ++ "\n")
          ⟨s!"{found.length} schema violation(s) in {file}", []⟩
      let d ← (PipelineDocument.ofJson v).mapError fun e => .ofLoad (.unreadable e)
      return structureReport file d

def loadDocument (files : Tree) (directory : Tree.Path) (file : String) :
    Except Failure PipelineDocument := do
  let text ← (files.readText (Tree.resolve directory file)).mapError fun e =>
    .ofFile s!"failed to read pipeline file: {e.message}" e
  (PipelineDocument.load text).mapError .ofLoad

def adjacencyLine (node : String) (successors : List String) : String :=
  if successors.isEmpty then s!"  {node}\n"
  else "  " ++ node ++ " -> " ++ ", ".intercalate successors ++ "\n"

def showGraph (files : Tree) (directory : Tree.Path) (file : String) : Report :=
  .ofExcept do
    let g := ControlGraph.ofDocument (← loadDocument files directory file)
    let nodes := String.join (g.adjacency.map fun a => adjacencyLine a.1 a.2)
    let cycles :=
      if g.cycles.isEmpty then marked "*" "no cycles"
      else markedAll "!" (g.cycles.map fun c => s!"cycle: {wayText c}")
    return .done ("\n" ++ nodes ++ "\n" ++ cycles ++ "\n") ""

end Workflow.Command
