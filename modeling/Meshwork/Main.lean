import Meshwork.Command.Footprint

/-!
# The program

Copies the files that a command may touch into a file system that is a value,
carries the command out there, and puts back what has changed.
-/

namespace Meshwork.Program

/-- What lies at a place of the disk. -/
def observe (place : Place) : IO (Option FileEntry) := do
  let path := (← IO.currentDir) / ("/" ++ "/".intercalate place)
  if ← path.isDir then return some .directory
  if ← path.pathExists then return some (.file (← IO.FS.readBinFile path).toList)
  return none

/-- Adds what lies on the way to locations. -/
def copyIn (fs : FileSystem) (locations : List String) : IO FileSystem := do
  let mut fs := fs
  for location in locations do
    for place in fs.placesTo location do
      if (fs.at? place).isNone then
        if let some entry ← observe place then fs := fs.put place entry
  return fs

/-- Puts changes on the disk, directories before what lies in them. -/
def copyOut (changes : List (Place × FileEntry)) : IO Unit := do
  for (place, entry) in changes.mergeSort (fun a b => a.1.length ≤ b.1.length) do
    let path := "/" ++ "/".intercalate place
    match entry with
    | .directory => IO.FS.createDirAll path
    | .file contents => IO.FS.writeBinFile path (ByteArray.mk contents.toArray)

/-- The environment. -/
def environment : IO Environment := do
  let mut values := []
  for name in ["HOME", Environment.fileVariable, Environment.directoryVariable] do
    if let some value ← IO.getEnv name then values := Keyed.insert name value values
  return ⟨values, none⟩

/-- The time, by that of a new file. -/
def now : IO Timestamp := do
  let (_, path) ← IO.FS.createTempFile
  let time := (← path.metadata).modified
  IO.FS.removeFile path
  return ⟨time.sec, time.nsec.toNat⟩

/-- The files that a command may touch. -/
def snapshot (i : Invocation) (environment : Environment) : IO FileSystem := do
  let directory := FilePath.pieces (← IO.currentDir).toString
  let fs : FileSystem := ⟨[], directory.pieces.filter (· ≠ "")⟩
  let fs ← copyIn fs (i.locations environment)
  match i.pipelineFile? with
  | none => return fs
  | some path =>
    match PipelineFile.load fs path with
    | .ok file => copyIn fs file.locations
    | .error _ => return fs

/-- Carries out what a command line asks for; the result is the code of the
program. -/
def carryOut (i : Invocation) : IO UInt32 := do
  let environment ← environment
  let before ← snapshot i environment
  let (outcome, console) := i.carryOut environment (← now) before
  copyOut (before.changes console.files)
  IO.eprint console.progress
  IO.print console.output
  match outcome with
  | .ok () => return 0
  | .error e =>
    IO.eprintln ("error: " ++ e.message)
    return 1

end Meshwork.Program

/-- Reads the command line and carries it out. -/
def main (words : List String) : IO UInt32 := do
  match Meshwork.Invocation.read words with
  | .ok i => Meshwork.Program.carryOut i
  | .error e =>
    if e.isRequest then IO.println e.message else IO.eprintln ("error: " ++ e.message)
    return if e.isRequest then 0 else 2
