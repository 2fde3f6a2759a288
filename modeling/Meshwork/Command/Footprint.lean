import Meshwork.Command.Execution
import Meshwork.Xdmf.Document

/-!
# The files of a command

Which locations a command may read or write. A program that keeps its files
elsewhere, such as on a disk, looks at these before it carries the command
out, and puts them back afterwards.

The arguments of a pipeline may be locations too, so a pipeline file has a
footprint of its own (`PipelineFile.locations`).
-/

namespace Meshwork

/-- The locations that a command line names, as they are given. -/
def Command.locations : Command → List String
  | .importMesh input output _ _ _ _ => [input, output, Xdmf.siblingPath output]
  | .run pipeline _ input output _ => pipeline :: input.toList ++ output.toList
  | .preflight pipeline input _ => pipeline :: input.toList
  | .inspect file _ _ => [file]
  | .filters .. | .getSetting _ | .setSetting .. | .listSettings | .completion _ => []

namespace Invocation

/-- A location on the command line as it is meant. -/
def located (i : Invocation) (path : String) : String :=
  match i.directory with
  | some directory => FilePath.join directory path
  | none => path

/-- **The locations that a command may touch.** -/
def locations (i : Invocation) (environment : Environment) : List String :=
  environment.candidates ++ (environment.userFile.toOption).toList
    ++ i.located Configuration.projectName :: i.command.locations.map i.located

/-- The pipeline file of a command. -/
def pipelineFile? (i : Invocation) : Option String :=
  match i.command with
  | .run pipeline .. | .preflight pipeline .. => some (i.located pipeline)
  | _ => none

end Invocation

/-- The locations that an argument may mean. -/
def ParameterValue.locations : ParameterValue → List String
  | .text path | .filePath path => [path, Xdmf.siblingPath path]
  | _ => []

/-- **The locations that the steps of a pipeline may touch.** -/
def PipelineFile.locations (f : PipelineFile) : List String :=
  f.steps.flatMap fun step => step.args.flatMap fun (_, value) => value.locations

/-- The places above a place and the place itself, from the root down. -/
def Place.upTo (place : Place) : List Place :=
  (List.range (place.length + 1)).map fun depth => place.take depth

/-- The places on the way to a location and at its end, from the root
down. -/
def FileSystem.placesTo (fs : FileSystem) (path : String) : List Place :=
  let p := FilePath.pieces path
  (p.pieces.foldl
    (fun (place, places) piece =>
      if FilePath.isVoid piece then (place, places)
      else
        let next := if piece = ".." then place.dropLast else place ++ [piece]
        (next, places ++ [next]))
    (fs.start p, Place.upTo (fs.start p))).2

/-- **What differs after a command**: the entries that are new or have other
contents. -/
def FileSystem.changes (before after : FileSystem) : List (Place × FileEntry) :=
  after.entries.filter fun (place, entry) => before.at? place ≠ some entry

end Meshwork
