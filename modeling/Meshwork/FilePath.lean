import Meshwork.DataPath

/-!
# File names

The location of a file is kept as the text it was given as, since messages
show that text. What the text means follows from its pieces between
slashes: empty pieces and dots stand for nothing, except that a dot at the
start is the current directory.
-/

namespace Meshwork.FilePath

/-- A location together with how its text splits up. -/
structure Pieces where
  /-- Whether the location starts at the root. -/
  rooted : Bool
  /-- The pieces between slashes, without the empty one before the root. -/
  pieces : List String

/-- The pieces of a location. -/
def pieces (path : String) : Pieces :=
  match (splitSegments path.toList).map String.ofList with
  | "" :: next :: rest => ⟨true, next :: rest⟩
  | pieces => ⟨false, pieces⟩

/-- Whether a location starts at the root. -/
def isAbsolute (path : String) : Bool := (pieces path).rooted

/-- Whether a piece stands for nothing. -/
def isVoid (piece : String) : Bool := piece == "" || piece == "."

/-- Backwards pieces without those at the front that stand for nothing; a dot
that starts a relative location remains. -/
def trimVoid (rooted : Bool) : List String → List String
  | [] => []
  | [piece] => if piece == "" || (rooted && piece == ".") then [] else [piece]
  | piece :: rest => if isVoid piece then trimVoid rooted rest else piece :: rest

/-- The text of backwards pieces. -/
def ofReversed (rooted : Bool) (pieces : List String) : String :=
  (if rooted then "/" else "") ++ "/".intercalate pieces.reverse

/-- **The name of the file** that a location ends with; none if it ends
otherwise, such as with the directory above. -/
def fileName? (path : String) : Option String :=
  let p := pieces path
  match trimVoid p.rooted p.pieces.reverse with
  | [] => none
  | last :: _ => if last == ".." || last == "." then none else some last

/-- **The location without its last piece**; none if it has none. -/
def parent? (path : String) : Option String :=
  let p := pieces path
  match trimVoid p.rooted p.pieces.reverse with
  | [] => none
  | _ :: rest => some (ofReversed p.rooted (trimVoid p.rooted rest))

/-- **The extension of the file name**: what follows its last dot, if there is a name before that
dot. A name that begins with its only dot has none. -/
def extension? (path : String) : Option String :=
  (fileName? path).bind fun name =>
    let reversed := name.toList.reverse
    match reversed.dropWhile (· ≠ '.') with
    | [] | [_] => none
    | _ => some (String.ofList (reversed.takeWhile (· ≠ '.')).reverse)

/-- **A location below another.** One that starts at the root stands for
itself. -/
def join (path below : String) : String :=
  if isAbsolute below then below
  else if path == "" || path.endsWith "/" then path ++ below
  else path ++ "/" ++ below

end Meshwork.FilePath
