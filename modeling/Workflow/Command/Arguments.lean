/-!
# The arguments of the command line

Options that hold for all commands may stand before the name of the command or after it. An option
has a long name, and some have a letter; letters without values may be written together.
-/
namespace Workflow.Command

/-- What the program is asked to do with a file. -/
inductive Task where
  | validate (schema : Option String)
  | graph
  | run (pipeline context : Option String) (showState : Bool)
  deriving DecidableEq, Repr, Inhabited

/-- A task with its file and the file with the settings. -/
structure Invocation where
  config : Option String
  task : Task
  file : String
  deriving DecidableEq, Repr, Inhabited

/-- What arguments come to. -/
inductive Request where
  | invocation (i : Invocation)
  | help
  | version (program : String)
  | misuse
  deriving DecidableEq, Repr, Inhabited

inductive Purpose where
  | config
  | verbose
  | jsonLogs
  | schema
  | pipeline
  | context
  | state
  | help
  | version
  deriving DecidableEq, Repr, Inhabited

structure Switch where
  purpose : Purpose
  long : String
  letter : Option Char
  takesValue : Bool

def commonSwitches : List Switch :=
  [⟨.config, "config", none, true⟩, ⟨.verbose, "verbose", some 'v', false⟩,
    ⟨.jsonLogs, "json-logs", none, false⟩, ⟨.help, "help", some 'h', false⟩,
    ⟨.version, "version", some 'V', false⟩]

def commands : List (String × List Switch) :=
  [("validate", [⟨.schema, "schema", none, true⟩]),
    ("graph", []),
    ("run", [⟨.pipeline, "pipeline", some 'p', true⟩, ⟨.context, "context", none, true⟩,
      ⟨.state, "state", none, false⟩])]

def programName : String := "pipewright"

/-- Why reading stops before the end. -/
inductive Stop where
  | help
  | version
  | misuse
  deriving DecidableEq, Repr

/-- What has been read: options with their values, and other arguments. -/
structure Given where
  settings : List (Purpose × String)
  operands : List String

namespace Given

def nothing : Given := ⟨[], []⟩

def value? (g : Given) (p : Purpose) : Option String := g.settings.lookup p

def has (g : Given) (p : Purpose) : Bool := (g.value? p).isSome

/-- Gives an option a value. Only verbosity may be given again, and names of files must not be
empty. -/
def set (g : Given) (p : Purpose) (v : String) : Except Stop Given :=
  if g.has p ∧ p ≠ .verbose then .error .misuse
  else if (p = .config ∨ p = .schema) ∧ v.isEmpty then .error .misuse
  else .ok { g with settings := (p, v) :: g.settings }

def raise (g : Given) : Purpose → Except Stop Given
  | .help => .error .help
  | .version => .error .version
  | p => g.set p ""

end Given

/-- Reads the letters of an argument. The option that still needs a value is given with what was
read. -/
def readLetters (switches : List Switch) (g : Given) :
    List Char → Except Stop (Given × Option Purpose)
  | [] => .ok (g, none)
  | c :: rest =>
    match switches.find? (fun s => s.letter == some c) with
    | none => .error .misuse
    | some s =>
      if s.takesValue then
        match rest with
        | [] => .ok (g, some s.purpose)
        | '=' :: value => (g.set s.purpose (String.ofList value)).map (·, none)
        | value => (g.set s.purpose (String.ofList value)).map (·, none)
      else do readLetters switches (← g.raise s.purpose) rest

/-- Reads a long option without its two hyphens. -/
def readLong (switches : List Switch) (g : Given) (cs : List Char) :
    Except Stop (Given × Option Purpose) :=
  match switches.find? (fun s => s.long.toList == cs.takeWhile (· != '=')),
      cs.dropWhile (· != '=') with
  | none, _ => .error .misuse
  | some s, [] =>
    if s.takesValue then .ok (g, some s.purpose) else (g.raise s.purpose).map (·, none)
  | some s, _ :: value =>
    if s.takesValue then (g.set s.purpose (String.ofList value)).map (·, none) else .error .misuse

def isOperand (arg : String) : Bool := arg == "-" || !arg.startsWith "-"

def readSwitch (switches : List Switch) (g : Given) (arg : String) :
    Except Stop (Given × Option Purpose) :=
  match arg.toList with
  | '-' :: '-' :: name => readLong switches g name
  | _ :: letters => readLetters switches g letters
  | [] => .error .misuse

/-- Reads arguments. With `upToOperand` it stops at the first that is no option, and gives it with
those after it. -/
def readArguments (switches : List Switch) (upToOperand : Bool) (g : Given) :
    List String → Except Stop (Given × List String)
  | [] => .ok (g, [])
  | arg :: rest =>
    if isOperand arg then
      if upToOperand then .ok (g, arg :: rest)
      else readArguments switches upToOperand { g with operands := g.operands ++ [arg] } rest
    else if arg = "--" then
      if upToOperand then .error .misuse
      else .ok ({ g with operands := g.operands ++ rest }, [])
    else do
      match ← readSwitch switches g arg, rest with
      | (g, none), rest => readArguments switches upToOperand g rest
      | (g, some p), value :: rest =>
        if isOperand value then readArguments switches upToOperand (← g.set p value) rest
        else throw .misuse
      | (_, some _), [] => throw .misuse

def taskOf (command : String) (g : Given) : Task :=
  if command = "validate" then .validate (g.value? .schema)
  else if command = "graph" then .graph
  else .run (g.value? .pipeline) (g.value? .context) (g.has .state)

/-- The file with the settings: the one named after the command, or else before it, or else by the
environment. -/
def configOf (outer inner : Option String) (environment : Option String) :
    Except Stop (Option String) :=
  if (outer.isNone ∨ inner.isNone) ∧ environment = some "" then .error .misuse
  else .ok ((inner.or outer).or environment)

/-- The invocation that the arguments after the name of a command describe. -/
def readCommand (outer : Given) (environment : Option String) (command : String)
    (switches : List Switch) (args : List String) : Except Stop Invocation := do
  let (g, _) ← readArguments (commonSwitches ++ switches) false .nothing args
  match g.operands with
  | [file] =>
    if file.isEmpty then throw .misuse
    let config ← configOf (outer.value? .config) (g.value? .config) environment
    return ⟨config, taskOf command g, file⟩
  | _ => throw .misuse

/-- What a stop asks for, where `program` is being used. -/
def Stop.request (program : String) : Stop → Request
  | help => .help
  | version => .version program
  | misuse => .misuse

/-- What is asked for when help is wanted, perhaps on a command. -/
def helpRequest (topics : List String) : Request :=
  if topics.all (fun t => t = "help" ∨ (commands.lookup t).isSome) then .help else .misuse

namespace Request

/-- What arguments ask for. The environment may name the file with the settings. -/
def ofArguments (environment : Option String) (args : List String) : Request :=
  match readArguments commonSwitches true .nothing args with
  | .error stop => stop.request programName
  | .ok (_, []) => .misuse
  | .ok (outer, command :: rest) =>
    if command = "help" then helpRequest rest
    else
      match commands.lookup command with
      | none => .misuse
      | some switches =>
        match readCommand outer environment command switches rest with
        | .ok i => .invocation i
        | .error stop => stop.request (programName ++ "-" ++ command)

end Request
end Workflow.Command
