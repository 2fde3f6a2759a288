import Meshwork.FileSystem.Basic
import Meshwork.Number.Decimal
import Meshwork.Text.Quoted

/-!
# Writing files

A file is never written in place. Its new contents go into a staged file
beside it, under a name that nothing else has, and the staged file is moved
over the old one when everything is ready. Whoever looks meets the old
contents or the new, and a staged file that is not moved is taken away
again.

Each function leaves a file system whether it succeeds or not.
-/

namespace Meshwork.FileSystem

/-! ## Directories

Directories are created from the top, each in the one before. Whoever asks for a directory
that is there gets it. -/

/-- A location as the directory that holds it and the last piece, and whether
slashes follow that piece. The root has no last piece. -/
structure Target where
  /-- The pieces that lead to the directory. -/
  above : List String
  /-- The last piece. -/
  last : Option String
  /-- Whether slashes follow. -/
  trailing : Bool

/-- The parts of a location. -/
def target (p : FilePath.Pieces) : Target :=
  let reversed := p.pieces.reverse
  match reversed.dropWhile (· = "") with
  | [] => ⟨[], none, false⟩
  | last :: above => ⟨above.reverse, some last, reversed.head? = some ""⟩

/-- The place that a new name of a directory is to have. `special` is the error
of pieces that are no names. -/
def newPlace (fs : FileSystem) (special : FileError) (path : String) :
    Except FileError (Place × Target) := do
  checkText path
  let p := FilePath.pieces path
  let t := target p
  let directory ← fs.walk (fs.start p) (t.above ++ [""])
  match t.last with
  | none => throw special
  | some name =>
    if name = "." ∨ name = ".." then throw special
    if nameLimit < name.utf8ByteSize then throw .nameTooLong
    return (directory ++ [name], t)

/-- Creates a directory in one that exists. -/
def makeDirectory (path : String) (fs : FileSystem) : Except FileError FileSystem := do
  let (place, _) ← fs.newPlace .alreadyExists path
  match fs.at? place with
  | some _ => throw .alreadyExists
  | none => return fs.put place .directory

/-- Creates a directory and those above it that are missing. `fuel` bounds how
many there are. -/
def makeDirectoriesFrom : (fuel : Nat) → (path : String) → FileSystem →
    Except FileError Unit × FileSystem
  | 0, _, fs => (.error .noTree, fs)
  | fuel + 1, path, fs =>
    if path = "" then (.ok (), fs)
    else
      match fs.makeDirectory path with
      | .ok fs => (.ok (), fs)
      | .error .notFound =>
        match FilePath.parent? path with
        | none => (.error .noTree, fs)
        | some above =>
          match makeDirectoriesFrom fuel above fs with
          | (.error e, fs) => (.error e, fs)
          | (.ok (), fs) =>
            match fs.makeDirectory path with
            | .ok fs => (.ok (), fs)
            | .error e => (if fs.isDirectory path then .ok () else .error e, fs)
      | .error e => (if fs.isDirectory path then .ok () else .error e, fs)

/-- **Creates a directory and those above it that are missing.** What was created stays, also if a
later one cannot be. -/
def makeDirectories (path : String) (fs : FileSystem) : Except FileError Unit × FileSystem :=
  makeDirectoriesFrom (path.length + 2) path fs

/-- Creates the directory that a file is to lie in. -/
def makeParent (path : String) (fs : FileSystem) : Except FileError Unit × FileSystem :=
  fs.makeDirectories ((FilePath.parent? path).getD "")

/-! ## Staged files

Staging, moving and discarding are three steps, so that several files can be staged before
the first is moved. -/

/-- **A file with new contents that waits to replace another.** Until it does, the other can be
read as before. -/
structure StagedFile where
  /-- Where it lies. -/
  place : Place
  /-- The location of the file that it is to replace. -/
  target : String
deriving DecidableEq

/-- The name of a staged file: hidden, with a number that makes it unique. -/
def stagedName (name : String) (number : Nat) : String :=
  let digits := Nat.toDigits 16 number
  "." ++ name ++ "." ++ String.ofList (List.replicate (32 - digits.length) '0' ++ digits) ++ ".tmp"

/-- A number for which no staged file exists, from `number` on. `fuel` bounds
how many exist. -/
def freeNumber (fs : FileSystem) (directory : Place) (name : String) :
    (fuel number : Nat) → Nat
  | 0, number => number
  | fuel + 1, number =>
    match fs.at? (directory ++ [stagedName name number]) with
    | none => number
    | some _ => freeNumber fs directory name fuel (number + 1)

/-- The place of a staged file for a location. -/
def stagedPlace (fs : FileSystem) (path : String) : Except FileError Place := do
  match FilePath.fileName? path with
  | none => throw (.noFileName path)
  | some name =>
    let above := (FilePath.parent? path).getD ""
    let directory := if above = "" then "." else above
    checkText (directory ++ "/" ++ stagedName name 0)
    let p := FilePath.pieces directory
    let place ← fs.walk (fs.start p) (p.pieces ++ [""])
    let free := stagedName name (fs.freeNumber place name fs.entries.length 0)
    if nameLimit < free.utf8ByteSize then throw .nameTooLong
    return place ++ [free]

/-- **Writes new contents beside the file at a location.** The file at the location is not
touched, and need not be there. -/
def stage (path : String) (contents : Bytes) (fs : FileSystem) :
    Except FileError StagedFile × FileSystem :=
  match fs.stagedPlace path with
  | .error e => (.error e, fs)
  | .ok place => (.ok ⟨place, path⟩, fs.put place (.file contents))

/-- The place of the file that a staged one replaces. -/
def replacedPlace (fs : FileSystem) (path : String) : Except FileError Place := do
  let (place, t) ← fs.newPlace .busy path
  if t.trailing then throw .notDirectory
  match fs.at? place with
  | some .directory => throw .isDirectory
  | _ => return place

/-- Takes a staged file away. -/
def discardStaged (staged : StagedFile) (fs : FileSystem) : FileSystem := fs.erase staged.place

/-- **Moves a staged file over the one that it replaces.** If that is not possible it is taken
away. There is no moment at which the location has only a part of the contents. -/
def commitStaged (staged : StagedFile) (fs : FileSystem) : Except FileError Unit × FileSystem :=
  match fs.replacedPlace staged.target, fs.at? staged.place with
  | .error e, _ => (.error e, fs.discardStaged staged)
  | .ok _, none => (.error .notFound, fs)
  | .ok place, some entry => (.ok (), (fs.discardStaged staged).put place entry)

/-- **Replaces the contents of a file**, or creates it. It is staged and then moved, so a failure
leaves the old contents. -/
def writeAtomic (path : String) (contents : Bytes) (fs : FileSystem) :
    Except FileError Unit × FileSystem :=
  match fs.stage path contents with
  | (.error e, fs) => (.error e, fs)
  | (.ok staged, fs) => fs.commitStaged staged

end Meshwork.FileSystem
