import Meshwork.CommandLine.Grammar

/-!
# The commands of the program

The command line of the program `mpipe` as a `Grammar`, and what it asks for
as an `Invocation`: a command with its options, and a few options that every
command has. Those may be given to the program as well as to a command; what
is given last counts.
-/

namespace Meshwork

open CommandLine

/-- **What the program is asked to do.** -/
inductive Command where
  /-- Import a mesh file into a container. -/
  | importMesh (input output geometryPath : String) (scale : Option Double)
      (withoutAuxiliary json : Bool)
  /-- Run a pipeline. -/
  | run (pipeline : String) (policy input output : Option String) (json : Bool)
  /-- Check a pipeline. -/
  | preflight (pipeline : String) (input : Option String) (json : Bool)
  /-- Show what a container holds. -/
  | inspect (file : String) (headerOnly json : Bool)
  /-- List the filters, or describe one. -/
  | filters (filter : Option String) (json : Bool)
  /-- Show a setting. -/
  | getSetting (key : String)
  /-- Change a setting of the user or the project. -/
  | setSetting (key value : String) (project : Bool)
  /-- Show all settings. -/
  | listSettings
  /-- Write a completion script for a shell. -/
  | completion (shell : String)
deriving DecidableEq, Repr

/-- **What the program is asked to do, and how.** -/
structure Invocation where
  /-- The directory that locations on the command line start from. -/
  directory : Option String
  /-- Whether details are logged. -/
  debug : Bool
  /-- Whether to tell as little as possible. -/
  quiet : Bool
  /-- What to do. -/
  command : Command
deriving DecidableEq, Repr

namespace Invocation

/-! ## The grammar

The words and the options are written down as data, so that the reader knows nothing of
this program. -/

/-- An option with a value that may be left out. -/
def optional (name : String) (kind : ValueKind) : OptionSpec := ⟨name, none, .value kind, false⟩

/-- An option that is given or not. -/
def switch (name : String) : OptionSpec := ⟨name, none, .switch, false⟩

/-- The options that every command has. -/
def shared : List OptionSpec :=
  [optional "cwd" .path, switch "debug", ⟨"quiet", some 'q', .switch, false⟩,
    ⟨"help", some 'h', .help, false⟩]

/-- A command without commands of its own. -/
def leaf (options : List OptionSpec) (operands : List OperandSpec) : Grammar :=
  .mk (shared ++ options) operands []

/-- The shells that completion scripts are written for. -/
def shells : List String := ["bash", "zsh", "fish", "power-shell"]

/-- What is imported as a geometry without a path. -/
def standardPath : String := "Geometry"

/-- The commands on settings. -/
def settingCommands : Grammar :=
  .mk shared []
    [("get", leaf [] [⟨"key", .text, true⟩]),
      ("set", leaf [switch "project"] [⟨"key", .text, true⟩, ⟨"value", .text, true⟩]),
      ("list", leaf [] [])]

/-- **The command line of the program.** -/
def grammar : Grammar :=
  .mk (⟨"version", some 'V', .version, false⟩ :: shared) []
    [("import", leaf
        [⟨"output", some 'o', .value .path, true⟩, optional "geometry-path" .text,
          optional "scale" .number, switch "no-xdmf", switch "json"]
        [⟨"input", .path, true⟩]),
      ("run", leaf
        [optional "policy" .text, optional "input" .path, optional "output" .path, switch "json"]
        [⟨"pipeline", .path, true⟩]),
      ("preflight", leaf [optional "input" .path, switch "json"] [⟨"pipeline", .path, true⟩]),
      ("inspect", leaf [switch "header", switch "json"] [⟨"file", .path, true⟩]),
      ("filters", leaf [switch "json"] [⟨"filter", .text, false⟩]),
      ("config", settingCommands),
      ("completion", leaf [] [⟨"shell", .choice shells, true⟩])]

/-! ## What it asks for -/

/-- Whether something is given. -/
def isGiven (given : Given) (name : String) : Bool := (given.lookup name).isSome

/-- The value of something that must be given. -/
def demand (given : Given) (name : String) : Except UsageError String :=
  match given.lookup name with
  | some text => .ok text
  | none => .error .missingArgument

/-- The command of a name, from what is given to it. -/
def commandOf (name : String) (given : Given) : Except UsageError Command := do
  if name = "import" then
    return .importMesh (← demand given "input") (← demand given "output")
      ((given.lookup "geometry-path").getD standardPath)
      ((given.lookup "scale").bind fun text => Double.ofText? text.toList)
      (isGiven given "no-xdmf") (isGiven given "json")
  else if name = "run" then
    return .run (← demand given "pipeline") (given.lookup "policy") (given.lookup "input")
      (given.lookup "output") (isGiven given "json")
  else if name = "preflight" then
    return .preflight (← demand given "pipeline") (given.lookup "input") (isGiven given "json")
  else if name = "inspect" then
    return .inspect (← demand given "file") (isGiven given "header") (isGiven given "json")
  else if name = "filters" then
    return .filters (given.lookup "filter") (isGiven given "json")
  else if name = "get" then return .getSetting (← demand given "key")
  else if name = "set" then
    return .setSetting (← demand given "key") (← demand given "value") (isGiven given "project")
  else if name = "list" then return .listSettings
  else if name = "completion" then return .completion (← demand given "shell")
  else throw .unknownCommand

/-- The value that is given last. -/
def lastGiven (levels : List Level) (name : String) : Option String :=
  levels.reverse.findSome? fun level => level.given.lookup name

/-- **Reads a command line.** -/
def read (words : List String) : Except UsageError Invocation := do
  let levels ← readWords "" grammar (.start grammar) words
  match levels.getLast? with
  | none => throw .nothingGiven
  | some level =>
    let command ← commandOf level.command level.given
    return ⟨lastGiven levels "cwd", (lastGiven levels "debug").isSome,
      (lastGiven levels "quiet").isSome, command⟩

end Invocation

end Meshwork
