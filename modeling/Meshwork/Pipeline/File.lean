import Meshwork.FileSystem.Write
import Meshwork.Filter.Registry
import Meshwork.Json.Record
import Meshwork.Pipeline.Basic

/-!
# Pipeline files

A pipeline is described in JSON by its name, its policy and its steps. A
step names its filter, by name or by identifier, and gives its arguments; it
may have a label and may be disabled. What has its usual value can be left
out, and is left out in writing.

The description does not know the filters. `PipelineFile.resolve` looks them
up and makes the pipeline, and `PipelineFile.ofPipeline` goes back.
-/

namespace Meshwork

open Json

/-- **The description of a step.** The filter is a text here: which one it means is decided by a
registry. -/
structure StepEntry where
  /-- The name or the identifier of the filter. -/
  filter : String
  /-- Whether the step is done at all. -/
  enabled : Bool
  /-- What the step is called, if not like the filter. -/
  label : Option String
  /-- What it is done with. -/
  args : Arguments
deriving DecidableEq

/-- **The description of a pipeline.** It is what a file says, and can be read and written without
any filter being known. -/
structure PipelineFile where
  /-- The name. -/
  name : String
  /-- The policy, if the description has one. -/
  policy : Option FailurePolicy
  /-- The steps. -/
  steps : List StepEntry
deriving DecidableEq

/-- **What is wrong with a pipeline file.** Filters are looked for only once the whole has been
read. -/
inductive PipelineFileError where
  /-- It cannot be read. -/
  | read (path : String) (cause : FileError)
  /-- It is no description of a pipeline. -/
  | parse (path message : String)
  /-- It cannot be written. -/
  | write (path : String) (cause : FileError)
  /-- There is no such filter. -/
  | unknownFilter (index : Nat) (filter : String)
deriving DecidableEq

/-- The text of an error. -/
def PipelineFileError.message : PipelineFileError → String
  | read path cause => s!"failed to read pipeline file {path}: {cause.message}"
  | parse path message => s!"failed to parse pipeline file {path}: {message}"
  | write path cause => s!"failed to write pipeline file {path}: {cause.message}"
  | unknownFilter index filter => s!"step {index}: unknown filter '{filter}'"

/-! ## Writing

Members with their usual values are left out, so that a description that was read and
written again may be shorter. -/

/-- A step in JSON. -/
def StepEntry.json (e : StepEntry) : Value :=
  let enabled := if e.enabled then [] else [("enabled", Value.bool false)]
  let label := match e.label with
    | none => []
    | some label => [("label", Value.string label)]
  .object (("filter", .string e.filter) :: enabled ++ label ++ [("args", e.args.json)])

namespace PipelineFile

/-- **The description in JSON.** The members come in a fixed order. -/
def json (f : PipelineFile) : Value :=
  let policy := match f.policy with
    | none => []
    | some policy => [("failure_policy", Value.string policy.text)]
  .object (("name", .string f.name) :: policy ++ [("steps", .array (f.steps.map StepEntry.json))])

/-! ## Reading -/

/-- How deeply an argument may nest. -/
def argumentDepth : Nat := depthLimit - 4

/-- The fields of a step as far as they are known. -/
structure StepDraft where
  /-- The name of the filter. -/
  filter : Option String
  /-- Whether the step is done. -/
  enabled : Option Bool
  /-- What the step is called. -/
  label : Option (Option String)
  /-- What it is done with. -/
  args : Option Arguments

/-- The names of the fields of a step. -/
def stepFields : List String := ["filter", "enabled", "label", "args"]

/-- The arguments of a step. -/
def takeArguments : Tree → Except Error Arguments := Arguments.ofTree argumentDepth

/-- A step. -/
def takeStep : Tree → Except Error StepEntry :=
  Tree.record "struct StepEntry"
    (fun c => do
      let (filter, c) ← c.demand 0 "struct StepEntry with 4 elements" Tree.text
      let (enabled, c) ← c.default true Tree.bool?
      let (label, c) ← c.default none (Tree.option Tree.text)
      let (args, c) ← c.default [] takeArguments
      return (⟨filter, enabled, label, args⟩, c))
    (StepDraft.mk none none none none)
    (fun d key tree => do
      if key = "filter" then return { d with filter := ← field key d.filter Tree.text tree }
      else if key = "enabled" then
        return { d with enabled := ← field key d.enabled Tree.bool? tree }
      else if key = "label" then
        return { d with label := ← field key d.label (Tree.option Tree.text) tree }
      else if key = "args" then return { d with args := ← field key d.args takeArguments tree }
      else throw (.unknownField key stepFields))
    (fun d => do
      let filter ← Json.demand "filter" d.filter
      return ⟨filter, d.enabled.getD true, d.label.getD none, d.args.getD []⟩)

/-- A policy, or none. -/
def takePolicy : Tree → Except Error (Option FailurePolicy) :=
  Tree.option fun tree => do
    let name ← tree.variant (FailurePolicy.all.map FailurePolicy.text)
    return (FailurePolicy.ofText? name).getD .standard

/-- The fields of a description as far as they are known. -/
structure Draft where
  /-- The name. -/
  name : Option String
  /-- The policy. -/
  policy : Option (Option FailurePolicy)
  /-- The steps. -/
  steps : Option (List StepEntry)

/-- The names of the fields of a description. -/
def fileFields : List String := ["name", "failure_policy", "steps"]

/-- A description. -/
def take : Tree → Except Error PipelineFile :=
  Tree.record "struct PipelineFile"
    (fun c => do
      let (name, c) ← c.demand 0 "struct PipelineFile with 3 elements" Tree.text
      let (policy, c) ← c.default none takePolicy
      let (steps, c) ← c.default [] (Tree.list takeStep)
      return (⟨name, policy, steps⟩, c))
    (Draft.mk none none none)
    (fun d key tree => do
      if key = "name" then return { d with name := ← field key d.name Tree.text tree }
      else if key = "failure_policy" then
        return { d with policy := ← field key d.policy takePolicy tree }
      else if key = "steps" then
        return { d with steps := ← field key d.steps (Tree.list takeStep) tree }
      else throw (.unknownField key fileFields))
    (fun d => do
      let name ← Json.demand "name" d.name
      return ⟨name, d.policy.getD none, d.steps.getD []⟩)

/-- **Reads a description.** Members may come in any order, and those that nobody knows are
errors. -/
def parse (text : String) : Except Error PipelineFile :=
  takeDocument take (text.toList.map some)

/-! ## Files

A file is text, and the text is a description. -/

/-- **Reads a pipeline file.** The location is part of what an error says. -/
def load (files : FileSystem) (path : String) : Except PipelineFileError PipelineFile := do
  let text ← (files.readText path).mapError (.read path)
  (parse text).mapError fun e => .parse path e.message

/-- **Writes a pipeline file.** A line feed ends the file. -/
def save (f : PipelineFile) (path : String) (fs : FileSystem) :
    Except PipelineFileError Unit × FileSystem :=
  match fs.writeAtomic path (bytesOf (f.json.pretty ++ "\n")) with
  | (.ok (), fs) => (.ok (), fs)
  | (.error e, fs) => (.error (.write path e), fs)

/-! ## Pipelines

A filter is looked up by its text as a registry does. A step whose filter is not known has
its position in the error. -/

/-- The steps of a description from a position on. -/
def resolveSteps (registry : Registry) :
    (index : Nat) → List StepEntry → Except PipelineFileError (List Step)
  | _, [] => .ok []
  | index, e :: rest =>
    match registry.resolve? e.filter with
    | none => .error (.unknownFilter index e.filter)
    | some filter => do
      let steps ← resolveSteps registry (index + 1) rest
      return ⟨filter, e.args, e.enabled, e.label⟩ :: steps

/-- **The pipeline of a description.** Arguments are not looked at. The first filter that is not
registered is reported, with its position. -/
def resolve (f : PipelineFile) (registry : Registry) : Except PipelineFileError Pipeline := do
  let steps ← resolveSteps registry 0 f.steps
  return .ofSteps f.name (f.policy.getD .standard) steps

/-- The description of a step. -/
def entryOf (s : Step) : StepEntry := ⟨s.filter.name, s.enabled, s.label, s.arguments⟩

/-- **The description of a pipeline.** Filters are written by the names that they are registered
under. -/
def ofPipeline (p : Pipeline) : PipelineFile := ⟨p.name, some p.policy, p.steps.map entryOf⟩

end PipelineFile

end Meshwork
