import Workflow.Command.Arguments
import Workflow.Command.Execute

/-!
# The program as a function

What the program writes, and what it does to the files, follows from its arguments, the files, and
the time.
-/
namespace Workflow.Command

/-- What the program finds: the directory that it works in, the file with the settings that the
environment names, and the time. -/
structure Surroundings where
  directory : Tree.Path
  configVariable : Option String
  now : Instant

structure Outcome where
  code : Nat
  output : String
  diagnostics : String
  deriving DecidableEq, Repr, Inhabited

/-- The variable of the environment that names the file with the settings. -/
def configVariableName : String := "PIPEWRIGHT_CONFIG"

def versionNumber : String := "0.1.0"

def usage : String :=
  "Validate, inspect and run YAML pipelines.\n\n"
    ++ s!"Usage: {programName} [OPTIONS] validate FILE [--schema FILE]\n"
    ++ s!"       {programName} [OPTIONS] graph FILE\n"
    ++ s!"       {programName} [OPTIONS] run FILE [--pipeline NAME] [--context JSON] [--state]\n\n"
    ++ "Options: --config FILE, --verbose, --json-logs, --help, --version\n"

def Invocation.files (i : Invocation) : List String :=
  [i.config.getD EngineConfig.defaultFile, i.file]
    ++ match i.task with
      | .validate (some schema) => [schema]
      | _ => []

/-- The names of the places where a run stores something. -/
def storageFiles (c : EngineConfig) : List String :=
  [c.storage.basePath, c.storage.binaryPath] ++ c.audit.logPath.toList

/-- The settings. A file that is named must hold some; the default file need not be there. -/
def settings (s : Surroundings) (file : Option String) (files : Tree) :
    Except Failure EngineConfig :=
  match file with
  | some file => (EngineConfig.load files s.directory file).mapError .ofConfig
  | none => .ok (EngineConfig.loadOrDefault files s.directory EngineConfig.defaultFile)

def performTask (s : Surroundings) (i : Invocation) : Attempt Tree Failure Report := do
  let c ← Attempt.look (settings s i.config)
  match i.task with
  | .validate schema => return validate (← get) s.directory i.file schema
  | .graph => return showGraph (← get) s.directory i.file
  | .run pipeline context showState =>
    execute c s.directory s.now i.file pipeline context showState

def perform (s : Surroundings) (args : List String) : StateM Tree Outcome := do
  match Request.ofArguments s.configVariable args with
  | .help => return ⟨0, usage, ""⟩
  | .version program => return ⟨0, s!"{program} {versionNumber}\n", ""⟩
  | .misuse => return ⟨2, "", usage⟩
  | .invocation i =>
    let r ← (performTask s i).run
    let report := Report.ofExcept r
    return ⟨report.code, report.output, report.diagnostics⟩

end Workflow.Command
