import Meshwork.Container.Document
import Meshwork.Filter.Builtin
import Meshwork.Pipeline.File
import Meshwork.Settings.Configuration

/-!
# Tasks

A command reads and writes files, prints lines and may fail. A `Task` is a
computation that does so: it is given its `Surroundings`, works on a
`Console`, and what it printed or wrote before it fails stays.

An error is told as a chain of causes, from what was attempted down to what
went wrong. An error of the file system that is already quoted by the error
above it is told again as a cause of its own.
-/

namespace Meshwork

/-- **Why a command fails.** -/
inductive CommandError where
  /-- The settings cannot be loaded. -/
  | loadSettings (cause : SettingsError)
  /-- A setting cannot be changed. -/
  | changeSetting (cause : SettingsError)
  /-- The settings of the user cannot be written. -/
  | saveUser (cause : SettingsError)
  /-- The settings of the project cannot be written. -/
  | saveProject (cause : SettingsError)
  /-- There is no such setting. -/
  | unknownKey (key : String)
  /-- A file cannot be read. -/
  | read (path : String) (cause : FileError)
  /-- A file is no container. -/
  | decode (path : String) (cause : CodecError)
  /-- A file cannot be written. -/
  | write (path : String) (cause : FileError)
  /-- The pipeline cannot be loaded. -/
  | pipeline (cause : PipelineFileError)
  /-- There is no such policy. -/
  | unknownPolicy (text : String)
  /-- There is no such filter. -/
  | unknownFilter (id : String)
  /-- The import has errors. -/
  | importFailed (findings : Findings)
  /-- The run ended early. -/
  | runFailed (name : String) (findings : Findings)
  /-- The run came to its end, but has errors. -/
  | runWithErrors (name : String) (findings : Findings)
  /-- The check has errors. -/
  | preflightFailed (findings : Findings)
  /-- Completion scripts are not available. -/
  | noCompletion (shell : String)
deriving DecidableEq

/-- The chain of an error of the settings. -/
def SettingsError.chain (e : SettingsError) : List String :=
  e.message :: match e with
    | .read _ cause | .write _ cause => [cause.message]
    | _ => []

/-- The chain of an error of a pipeline file. -/
def PipelineFileError.chain (e : PipelineFileError) : List String :=
  e.message :: match e with
    | .read _ cause | .write _ cause => [cause.message]
    | _ => []

namespace CommandError

/-- The chain of an error. -/
def chain : CommandError → List String
  | loadSettings cause => "Failed to load config" :: cause.chain
  | changeSetting cause => cause.chain
  | saveUser cause => "Failed to write global config" :: cause.chain
  | saveProject cause => "Failed to write project config" :: cause.chain
  | unknownKey key =>
    let known := ", ".intercalate (Setting.all.map Setting.key)
    [s!"Unknown configuration key: {key} (known: {known})"]
  | read path cause => [s!"Failed to read {path}", cause.message]
  | decode path cause => [s!"Failed to decode {path}", cause.message]
  | write path cause => [s!"Failed to write {path}", cause.message]
  | pipeline cause => cause.chain
  | unknownPolicy text => [FailurePolicy.unknownMessage text]
  | unknownFilter id => [s!"Unknown filter: {id}"]
  | importFailed findings => [s!"import failed: {findings.summary}"]
  | runFailed name findings => [s!"pipeline '{name}' failed: {findings.summary}"]
  | runWithErrors name findings =>
    [s!"pipeline '{name}' completed with errors: {findings.summary}"]
  | preflightFailed findings => [s!"preflight failed: {findings.summary}"]
  | noCompletion shell => [s!"no completion script for {shell}"]

/-- **The text of an error.** -/
def message (e : CommandError) : String := ": ".intercalate e.chain

end CommandError

/-- **What a command is given.** -/
structure Surroundings where
  /-- The environment. -/
  environment : Environment
  /-- The time. -/
  now : Timestamp
  /-- The directory that locations start from, if not the working
  directory. -/
  directory : Option String
  /-- Whether to tell as little as possible. -/
  quiet : Bool

/-- **What a command works on.** -/
structure Console where
  /-- The files. -/
  files : FileSystem
  /-- What was printed. -/
  output : String
  /-- What was told beside the output. -/
  progress : String

/-- **A computation of a command.** -/
abbrev Task := ReaderT Surroundings (ExceptT CommandError (StateM Console))

namespace Task

variable {α ε : Type}

/-- The surroundings. -/
def surroundings : Task Surroundings := read

/-- Whether to tell as little as possible. -/
def isQuiet : Task Bool := do return (← surroundings).quiet

/-- The files as they are. -/
def files : Task FileSystem := do return (← get).files

/-- Prints a line. -/
def print (line : String) : Task Unit :=
  modify fun c => { c with output := c.output ++ line ++ "\n" }

/-- Prints a line unless little is to be told. -/
def mention (line : String) : Task Unit := do
  if !(← isQuiet) then print line

/-- Prints lines. -/
def printAll (lines : List String) : Task Unit := lines.forM print

/-- Prints a value in JSON. -/
def printJson (value : Json.Value) : Task Unit := print value.pretty

/-- The value of an outcome, or its error. -/
def ofExcept (error : ε → CommandError) : Except ε α → Task α
  | .ok value => return value
  | .error e => throw (error e)

/-- Works on the files. -/
def withFiles (error : ε → CommandError) (work : FileSystem → Except ε α × FileSystem) :
    Task α := do
  let console ← get
  let (outcome, files) := work console.files
  set { console with files }
  ofExcept error outcome

/-- Carries out a run that nobody stops. Its reports are shown on request. -/
def perform (showReports : Bool) (run : Run α) : Task α := do
  let console ← get
  let (value, state) := run ⟨(← surroundings).now, fun _ => false⟩ (.start console.files)
  let lines := state.reports.map fun r => s!"[{r.filter}] {r.message}\n"
  let shown := if showReports then String.join lines else ""
  set { console with files := state.files, progress := console.progress ++ shown }
  return value

/-! ## Locations, settings and stores

Several commands start by finding files: a location on the command line is relative to a
directory, settings lie in one or two files, and a store is that of a container or empty. -/

/-- The text of the directory that locations start from. -/
def directory : Task String := do
  match (← surroundings).directory with
  | some directory => return directory
  | none => return "/" ++ "/".intercalate (← files).workingDirectory

/-- The location that a text on the command line stands for. -/
def locate (path : String) : Task String := do
  if FilePath.isAbsolute path then return path
  return FilePath.join (← directory) path

/-- The settings in effect. -/
def configuration : Task Configuration := do
  let directory ← directory
  let environment := (← surroundings).environment
  ofExcept .loadSettings (Configuration.load environment (← files) (some directory))

/-- The contents of a file. -/
def readFile (path : String) : Task Bytes := do
  ofExcept (.read path) ((← files).read path)

/-- **The store of a container file**; an empty one without a file. -/
def loadStore : Option String → Task Store
  | none => return .empty
  | some path => do
    let path ← locate path
    ofExcept (.decode path) (Container.decode (← readFile path))

/-- The policy of a name. -/
def policyOf (text : String) : Task FailurePolicy :=
  match FailurePolicy.ofText? text with
  | some policy => return policy
  | none => throw (.unknownPolicy text)

/-- **The pipeline of a file.** Its policy is the given one, or that of the
file, or that of the settings. -/
def loadPipeline (path : String) (policy : Option String) : Task Pipeline := do
  let path ← locate path
  let file ← ofExcept .pipeline (PipelineFile.load (← files) path)
  let pipeline ← ofExcept .pipeline (file.resolve .builtin)
  let policy ← match policy, file.policy with
    | some text, _ => policyOf text
    | none, some policy => pure policy
    | none, none => policyOf (← configuration).failurePolicy
  return { pipeline with policy }

end Task

end Meshwork
