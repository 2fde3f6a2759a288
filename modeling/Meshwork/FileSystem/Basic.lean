import Meshwork.FilePath
import Meshwork.Text.Bytes

/-!
# File systems

Files and directories are a value: the names from the root down to each of
them, with its contents if it is a file. A program that reads and writes
files is then a function from one file system to the next, and what it does
to any file can be stated.

The text of a location is followed piece by piece (`FileSystem.walk`): a
piece leads from a directory to one of its entries, to itself or to the
directory above. Every failure on the way is one of the system, with its
number.
-/

namespace Meshwork

/-- **What lies at a place of a file system.** Links and devices do not come up. -/
inductive FileEntry where
  /-- A directory. -/
  | directory
  /-- A file with its contents. -/
  | file (contents : Bytes)
deriving DecidableEq

/-- A place: the names from the root down. -/
abbrev Place := List String

/-- **A file system**, with the directory that relative locations start from. A place that is
listed more than once has the entry that comes first. -/
structure FileSystem where
  /-- All files and directories except the root. -/
  entries : List (Place × FileEntry)
  /-- The directory that relative locations start from. -/
  workingDirectory : Place

/-- **Why a file cannot be read or written.** -/
inductive FileError where
  /-- There is no such file. -/
  | notFound
  /-- The place is in use by the system. -/
  | busy
  /-- There is one already. -/
  | alreadyExists
  /-- A file stands where a directory is needed. -/
  | notDirectory
  /-- A directory stands where a file is needed. -/
  | isDirectory
  /-- The name is longer than names may be. -/
  | nameTooLong
  /-- The name holds a zero byte. -/
  | zeroByte
  /-- The contents are not text. -/
  | notText
  /-- The location names no file. -/
  | noFileName (path : String)
  /-- There is no directory above. -/
  | noTree
deriving DecidableEq, Repr

namespace FileError

/-- Whether the system reports the error, rather than the program. -/
def isSystem : FileError → Bool
  | notFound | busy | alreadyExists | notDirectory | isDirectory | nameTooLong => true
  | zeroByte | notText | noFileName _ | noTree => false

/-- The text of an error. -/
def message : FileError → String
  | notFound => "No such file or directory (os error 2)"
  | busy => "Device or resource busy (os error 16)"
  | alreadyExists => "File exists (os error 17)"
  | notDirectory => "Not a directory (os error 20)"
  | isDirectory => "Is a directory (os error 21)"
  | nameTooLong => "File name too long (os error 36)"
  | zeroByte => "file name contained an unexpected NUL byte"
  | notText => "stream did not contain valid UTF-8"
  | noFileName path => s!"'{path}' has no file name"
  | noTree => "failed to create whole tree"

end FileError

namespace FileSystem

/-- The entry of a place in a list. -/
def lookup (place : Place) : List (Place × FileEntry) → Option FileEntry
  | [] => none
  | (p, entry) :: rest => if p = place then some entry else lookup place rest

/-- **What lies at a place.** The root is a directory. It is not listed, so it cannot be taken
away either. -/
def at? (fs : FileSystem) (place : Place) : Option FileEntry :=
  if place = [] then some .directory else lookup place fs.entries

/-- Takes away what lies at a place. -/
def erase (place : Place) (fs : FileSystem) : FileSystem :=
  { fs with entries := fs.entries.filter fun (p, _) => p ≠ place }

/-- Puts something at a place, instead of what is there. -/
def put (place : Place) (entry : FileEntry) (fs : FileSystem) : FileSystem :=
  { fs with entries := (place, entry) :: (fs.erase place).entries }

theorem lookup_filter_ne (place other : Place) (entries : List (Place × FileEntry)) :
    lookup other (entries.filter fun (p, _) => p ≠ place)
      = if other = place then none else lookup other entries := by
  induction entries with
  | nil => simp [lookup]
  | cons head rest ih =>
    obtain ⟨p, e⟩ := head
    by_cases hp : p = place
    · subst hp
      by_cases ho : other = p
      · subst ho; simpa [lookup] using ih
      · simpa [lookup, ho, Ne.symm ho] using ih
    · by_cases ho : p = other
      · subst ho; simp [lookup, hp]
      · simpa [lookup, hp, ho] using ih

theorem at?_erase {place other : Place} (fs : FileSystem) (h : place ≠ []) :
    (fs.erase place).at? other = if other = place then none else fs.at? other := by
  by_cases ho : other = []
  · subst ho; simp [at?, Ne.symm h]
  · simpa [at?, ho, erase] using lookup_filter_ne place other fs.entries

theorem at?_put {place other : Place} (entry : FileEntry) (fs : FileSystem) (h : place ≠ []) :
    (fs.put place entry).at? other = if other = place then some entry else fs.at? other := by
  by_cases ho : other = []
  · subst ho; simp [at?, Ne.symm h]
  · by_cases hp : place = other
    · subst hp; simp [at?, ho, put, lookup]
    · have := lookup_filter_ne place other fs.entries
      simp only [Ne.symm hp, ↓reduceIte] at this
      simpa [at?, ho, put, lookup, erase, hp, Ne.symm hp] using this

/-! ## Following a location

What a location leads to is decided piece by piece from a directory. A piece that is a
file stops everything behind it, and every text is looked at for what the system does not
take before anything is followed. -/

/-- The number of bytes that a name may have. -/
def nameLimit : Nat := 255

/-- The number of bytes that the text of a location must stay below. -/
def pathLimit : Nat := 4096

/-- **Follows pieces from a place.** What the last piece leads to need not
exist; everything before must be a directory. -/
def walk (fs : FileSystem) : Place → List String → Except FileError Place
  | place, [] => .ok place
  | place, piece :: rest =>
    match fs.at? place with
    | none => .error .notFound
    | some (.file _) => .error .notDirectory
    | some .directory =>
      if FilePath.isVoid piece then walk fs place rest
      else if piece = ".." then walk fs place.dropLast rest
      else if nameLimit < piece.utf8ByteSize then .error .nameTooLong
      else walk fs (place ++ [piece]) rest

/-- Refuses texts that the system does not take. -/
def checkText (path : String) : Except FileError Unit :=
  if path.toList.contains '\x00' then .error .zeroByte
  else if path = "" then .error .notFound
  else if pathLimit ≤ path.utf8ByteSize then .error .nameTooLong
  else .ok ()

/-- Where a location starts. -/
def start (fs : FileSystem) (p : FilePath.Pieces) : Place :=
  if p.rooted then [] else fs.workingDirectory

/-- **The place that a location stands for.** The pieces are walked one by one, so that everything
passed on the way has to be a directory. -/
def resolve (fs : FileSystem) (path : String) : Except FileError Place := do
  checkText path
  let p := FilePath.pieces path
  fs.walk (fs.start p) p.pieces

/-! ## Reading

These ask what lies where a location leads, in the few ways in which programs do. -/

/-- The file or directory at a location. -/
def stat (fs : FileSystem) (path : String) : Except FileError FileEntry := do
  let place ← fs.resolve path
  match fs.at? place with
  | none => throw .notFound
  | some entry => return entry

/-- Whether there is something at a location. -/
def pathExists (fs : FileSystem) (path : String) : Bool := (fs.stat path).toBool

/-- Whether there is a directory at a location. -/
def isDirectory (fs : FileSystem) (path : String) : Bool :=
  match fs.stat path with
  | .ok .directory => true
  | _ => false

/-- Whether there is a file at a location. -/
def isFile (fs : FileSystem) (path : String) : Bool :=
  match fs.stat path with
  | .ok (.file _) => true
  | _ => false

/-- **The contents of a file.** -/
def read (fs : FileSystem) (path : String) : Except FileError Bytes := do
  match ← fs.stat path with
  | .directory => throw .isDirectory
  | .file contents => return contents

/-- The contents of a file as text. -/
def readText (fs : FileSystem) (path : String) : Except FileError String := do
  let contents ← fs.read path
  (Utf8.decode contents).mapError fun _ => .notText

end FileSystem

end Meshwork
