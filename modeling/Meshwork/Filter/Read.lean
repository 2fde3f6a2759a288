import Meshwork.Container.Document
import Meshwork.Filter.Input

/-!
# Reading a container into a store

The filter brings every top-level object of a container, with all beneath
it, to the same path of the store. If it is to overwrite, what lies there is
replaced as a whole, and a warning says so.

The plan reads the container as well, so it announces just what the work will do. Nothing
of the container is merged into an object that is there: one of the two trees stays, as a
whole.
-/

namespace Meshwork.Filter

/-- **Which container is read.** They are made from the bound arguments. -/
structure ReadOptions where
  /-- The container file. -/
  file : String
  /-- Whether objects of the store are replaced. -/
  overwrite : Bool

namespace ReadOptions

/-- The options in the arguments. -/
def ofArguments (args : Arguments) : Except Findings ReadOptions := do
  let file ← argument (args.filePath "file_path")
  let overwrite ← argument (args.bool "overwrite")
  return ⟨file, overwrite⟩

/-- The edits that bring the objects of a store elsewhere. -/
def edits (o : ReadOptions) (loaded : Store) : List Edit :=
  loaded.topLevel.filterMap fun path =>
    (loaded.snapshot? path).map fun subtree => .insert path subtree o.overwrite

/-- **Reads the container** and gives the edits. There is one for each top-level object, with all
beneath it. -/
def load (o : ReadOptions) (files : FileSystem) : Except Findings (List Edit) := do
  let bytes ← readInput files o.file
  let loaded ← (Container.decode bytes).mapError (CodecError.finding o.file)
  return o.edits loaded

/-- A warning for every object that is replaced. -/
def notices (o : ReadOptions) (s : Store) (edits : List Edit) : Findings :=
  if o.overwrite then
    ⟨[], (edits.filter fun edit => s.contains edit.path).map fun edit =>
      ⟨.replacedExisting, s!"'{edit.path.text}' will be replaced", none⟩⟩
  else .none

end ReadOptions

/-- The name of the filter. -/
def readName : String := "read_store"

/-- What is announced. -/
def planRead (files : FileSystem) (s : Store) (args : Arguments) : Except Findings Plan := do
  let o ← ReadOptions.ofArguments args
  requireFile files o.file
  let edits ← o.load files
  return ⟨o.notices s edits, edits⟩

/-- Does the work. -/
def performRead (args : Arguments) : Run Outcome := do
  match ReadOptions.ofArguments args with
  | .error findings => return .failed findings
  | .ok o =>
    Run.report readName s!"reading {o.file}"
    match o.load (← Run.files) with
    | .error findings => return .failed findings
    | .ok edits => return ⟨.none, edits⟩

/-- **Brings the objects of a container into the store.** The container is read for the plan
already, and once more for the work. -/
def readStore : Filter where
  info :=
    { name := readName
      uuid := .ofNat 0x5c3a7f1e2b0d4c6a9e8f1a2b3c4d5e03
      title := "Read Store"
      tags := ["io", "input", "read", "container"]
      version := 1 }
  parameters :=
    [⟨"file_path", "Input Container", "Container file written by export_store", .filePath, none,
        some .nonEmpty⟩,
      ⟨"overwrite", "Overwrite Existing",
        "Replace objects that already exist at the same top-level path", .bool,
        some (.bool false), none⟩]
  plan files s args :=
    match planRead files s args with
    | .ok plan => plan
    | .error findings => .failed findings
  perform _ args := performRead args

end Meshwork.Filter
