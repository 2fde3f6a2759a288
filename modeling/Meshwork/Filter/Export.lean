import Meshwork.Container.Document
import Meshwork.FileSystem.Write
import Meshwork.Filter.Input
import Meshwork.Xdmf.Document

/-!
# Exporting a store

The filter writes the store to a container file and, if asked to, its
descriptor beside it. Both files are staged before either is moved to its
place, and the container goes last: whoever finds a new container finds
the descriptor that belongs to it.

Making the directory, staging and moving may each fail, and what was staged until then is
discarded. The directory stays.
-/

namespace Meshwork.Filter

/-- **Where the store is written to.** They are made from the bound arguments. -/
structure ExportOptions where
  /-- The container file. -/
  destination : String
  /-- Whether the descriptor is written too. -/
  writeAuxiliary : Bool

/-- The options in the arguments. -/
def ExportOptions.ofArguments (args : Arguments) : Except Findings ExportOptions := do
  let destination ← argument (args.filePath "destination")
  let writeAuxiliary ← argument (args.bool "write_auxiliary")
  return ⟨destination, writeAuxiliary⟩

/-- The name of the filter. -/
def exportName : String := "export_store"

/-- A file that cannot be written. -/
def writeFailure (path : String) (e : FileError) : Findings :=
  .ofError .writeError s!"cannot write '{path}': {e.message}"

/-- What is noticed beforehand. -/
def planExport (files : FileSystem) (s : Store) (o : ExportOptions) : Plan :=
  let directory : Findings :=
    if files.isDirectory o.destination then
      .ofError .writeError s!"'{o.destination}' is a directory"
    else .none
  let empty : Findings :=
    if s.isEmpty then .ofWarning .emptyStore "the store is empty; writing an empty container"
    else .none
  ⟨directory ++ empty, []⟩

/-- Creates the directory of a file. -/
def makeDirectoryOf (path : String) (fs : FileSystem) : Except Findings Unit × FileSystem :=
  match fs.makeParent path with
  | (.ok (), fs) => (.ok (), fs)
  | (.error e, fs) => (.error (writeFailure ((FilePath.parent? path).getD "") e), fs)

/-- Stages a file. -/
def stageFile (path : String) (contents : Bytes) :
    Run (Except Findings FileSystem.StagedFile) := do
  Run.report exportName s!"writing {path}"
  Run.withFiles fun fs =>
    match fs.stage path contents with
    | (.ok staged, fs) => (.ok staged, fs)
    | (.error e, fs) => (.error (writeFailure path e), fs)

/-- Moves staged files to their places, one after another. After a failure
those that are left are taken away. -/
def commitFiles : List FileSystem.StagedFile → FileSystem → Except Findings Unit × FileSystem
  | [], fs => (.ok (), fs)
  | staged :: rest, fs =>
    match fs.commitStaged staged with
    | (.ok (), fs) => commitFiles rest fs
    | (.error e, fs) =>
      (.error (writeFailure staged.target e), rest.foldl (fun fs staged => fs.discardStaged staged) fs)

/-- The answer of work that makes no edits. -/
def written : Except Findings Unit → Outcome
  | .ok () => ⟨.none, []⟩
  | .error findings => .failed findings

/-- Writes the descriptor, and then moves both files to their places. -/
def writeSibling (s : Store) (destination : String) (container : FileSystem.StagedFile) :
    Run Outcome := do
  match ← stageFile (Xdmf.siblingPath destination) (bytesOf (Xdmf.render s)) with
  | .error findings =>
    Run.withFiles fun fs => ((), fs.discardStaged container)
    return .failed findings
  | .ok sibling => return written (← Run.withFiles (commitFiles [sibling, container]))

/-- Does the work. -/
def performExport (s : Store) (args : Arguments) : Run Outcome := do
  match ExportOptions.ofArguments args with
  | .error findings => return .failed findings
  | .ok o =>
    let contents := bytesOf (Container.encode (← Run.now) s)
    match ← Run.withFiles (makeDirectoryOf o.destination) with
    | .error findings => return .failed findings
    | .ok () =>
      match ← stageFile o.destination contents with
      | .error findings => return .failed findings
      | .ok container =>
        if o.writeAuxiliary then writeSibling s o.destination container
        else return written (← Run.withFiles (commitFiles [container]))

/-- **Writes the store to a container file.** No edits are made: the store stays as it is. -/
def exportStore : Filter where
  info :=
    { name := exportName
      uuid := .ofNat 0x5c3a7f1e2b0d4c6a9e8f1a2b3c4d5e02
      title := "Export Store"
      tags := ["io", "output", "write", "export", "xdmf"]
      version := 1 }
  parameters :=
    [⟨"destination", "Output File", "Container file to write", .filePath, none, some .nonEmpty⟩,
      ⟨"write_auxiliary", "Write XDMF File",
        "Also write <destination>.xdmf describing the geometries", .bool, some (.bool true), none⟩]
  plan files s args :=
    match ExportOptions.ofArguments args with
    | .ok o => planExport files s o
    | .error findings => .failed findings
  perform := performExport

end Meshwork.Filter
