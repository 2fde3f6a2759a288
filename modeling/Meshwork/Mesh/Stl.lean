import Meshwork.Mesh.Basic
import Meshwork.Number.Decimal
import Meshwork.Number.Layout
import Meshwork.Text.Blank
import Meshwork.Text.Bytes

/-!
# STL meshes

STL lists triangles by the coordinates of their corners, each with a normal.
There is a text form and a binary form; a file is text if its first line
starts with `solid` and a blank. Corners with the very same bits become one
vertex, numbered in the order of their first use.

The text form is read line by line up to the first line that starts with
`endsolid`; lines without words do not count.
-/

namespace Meshwork.Stl

/-- The name of the format. -/
def name : String := "STL"

/-- **A triangle** by its coordinates. The normal is the one in the file, which need not fit the
corners. -/
structure Facet where
  /-- The normal. -/
  normal : Point
  /-- The first corner. -/
  a : Point
  /-- The second corner. -/
  b : Point
  /-- The third corner. -/
  c : Point
deriving DecidableEq

/-- The error of an STL file. -/
def malformed {α : Type} (message : String) : Except CodecError α :=
  .error (.parse name message)

/-- The error of a binary file that is too short. -/
def truncated {α : Type} : Except CodecError α := malformed "failed to fill whole buffer"

/-! ## The binary form -/

/-- The number of four bytes, the first one least significant. -/
def word (b0 b1 b2 b3 : UInt8) : Nat :=
  b0.toNat + 256 * b1.toNat + 65536 * b2.toNat + 16777216 * b3.toNat

/-- Reads a float. -/
def readFloat : Bytes → Option (Single × Bytes)
  | b0 :: b1 :: b2 :: b3 :: rest => some (.ofNat (word b0 b1 b2 b3), rest)
  | _ => none

/-- Reads three floats. -/
def readPoint (bytes : Bytes) : Option (Point × Bytes) := do
  let (x, bytes) ← readFloat bytes
  let (y, bytes) ← readFloat bytes
  let (z, bytes) ← readFloat bytes
  return (⟨x, y, z⟩, bytes)

/-- Reads a facet and the two bytes after it. -/
def readFacet (bytes : Bytes) : Option (Facet × Bytes) := do
  let (normal, bytes) ← readPoint bytes
  let (a, bytes) ← readPoint bytes
  let (b, bytes) ← readPoint bytes
  let (c, bytes) ← readPoint bytes
  match bytes with
  | _ :: _ :: rest => some (⟨normal, a, b, c⟩, rest)
  | _ => none

/-- Reads so many facets. `fuel` bounds how many the bytes can hold. -/
def readFacets : (fuel : Nat) → (missing : Nat) → Bytes → Except CodecError (List Facet)
  | _, 0, _ => .ok []
  | 0, _ + 1, _ => truncated
  | fuel + 1, missing + 1, bytes =>
    match readFacet bytes with
    | none => truncated
    | some (facet, rest) => do
      let facets ← readFacets fuel missing rest
      return facet :: facets

/-- The facets of a binary file: 80 bytes without a meaning, the number of
facets, and the facets. -/
def binaryFacets (bytes : Bytes) : Except CodecError (List Facet) :=
  match bytes.drop 80 with
  | b0 :: b1 :: b2 :: b3 :: rest => readFacets (rest.length / 50) (word b0 b1 b2 b3) rest
  | _ => truncated

/-! ## The text form

A solid is read as a sequence of lines of fixed words with numbers among them. The first
line that does not fit ends the reading, with an error that shows it. -/

/-- The lines of a file as bytes, without their ends. `line` holds the current
one backwards. -/
def byteLines (line : Bytes) : Bytes → List Bytes
  | [] => if line.isEmpty then [] else [line.reverse]
  | b :: rest =>
    if b = 10 then
      (match line with
        | 13 :: line => line.reverse
        | line => line.reverse) :: byteLines [] rest
    else byteLines (b :: line) rest

/-- The words of a line; none if the line is no text. -/
def lineWords (line : Bytes) : Option (List String) :=
  (Utf8.decode line).toOption.map fun text => (tokens text.toList).map String.ofList

/-- The lines that hold words, or are no text. -/
def wordLines (lines : List Bytes) : List (Option (List String)) :=
  (lines.map lineWords).filter fun words => words != some []

/-- Words as they are shown in messages. -/
def showWords (words : List String) : String := bracketed (words.map quoted)

/-- Reads the next line; `expected` ends the message if there is none. -/
def nextLine (expected : String) : List (Option (List String)) →
    Except CodecError (List String × List (Option (List String)))
  | [] => malformed s!"EOF while expecting {expected}"
  | none :: _ => malformed "stream did not contain valid UTF-8"
  | some words :: rest => .ok (words, rest)

/-- Reads a line of fixed words. -/
def expectWords (expected : List String) (lines : List (Option (List String))) :
    Except CodecError (List (Option (List String))) := do
  let shown := showWords expected
  let (words, rest) ← nextLine shown lines
  if words = expected then return rest
  let got := showWords words
  malformed s!"expected {shown}, got {got}"

/-- Reads a coordinate. It must be a finite number. -/
def readCoordinate (text : String) : Except CodecError Single :=
  match Single.ofText? text.toList with
  | none => malformed "invalid float literal"
  | some x =>
    if x.isFinite then .ok x
    else
      let shown := x.write .plain
      let sort := if x.isNaN then "Nan" else "Infinite"
      malformed s!"expected finite f32, got {shown} which is {sort}"

/-- Reads three coordinates. -/
def readCoordinates (x y z : String) : Except CodecError Point := do
  let x ← readCoordinate x
  let y ← readCoordinate y
  let z ← readCoordinate z
  return ⟨x, y, z⟩

/-- Reads a line with a corner. -/
def readCorner (lines : List (Option (List String))) :
    Except CodecError (Point × List (Option (List String))) := do
  let (words, rest) ← nextLine "vertex" lines
  match words with
  | ["vertex", x, y, z] =>
    let p ← readCoordinates x y z
    return (p, rest)
  | _ =>
    let got := showWords words
    malformed s!"vertex f32 f32 f32, got {got}"

/-- Reads the lines of a facet after its first. -/
def readLoop (normal : Point) (lines : List (Option (List String))) :
    Except CodecError (Facet × List (Option (List String))) := do
  let lines ← expectWords ["outer", "loop"] lines
  let (a, lines) ← readCorner lines
  let (b, lines) ← readCorner lines
  let (c, lines) ← readCorner lines
  let lines ← expectWords ["endloop"] lines
  let lines ← expectWords ["endfacet"] lines
  return (⟨normal, a, b, c⟩, lines)

/-- Reads facets up to the end of the solid. `fuel` bounds their number. -/
def readSolid : (fuel : Nat) → List (Option (List String)) → Except CodecError (List Facet)
  | 0, _ => malformed "EOF while expecting facet or endsolid."
  | fuel + 1, lines => do
    let (words, rest) ← nextLine "facet or endsolid." lines
    match words with
    | "endsolid" :: _ => return []
    | ["facet", "normal", x, y, z] =>
      let normal ← readCoordinates x y z
      let (facet, rest) ← readLoop normal rest
      let facets ← readSolid fuel rest
      return facet :: facets
    | _ =>
      let got := showWords words
      malformed s!"invalid facet header: {got}"

/-- Whether the first line is text that starts with `solid` and a blank. -/
def isText (bytes : Bytes) : Bool :=
  let first := bytes.takeWhile (· ≠ 10)
  (Utf8.decode first).toOption.isSome && (bytesOf "solid ").isPrefixOf first

/-- The facets of a text file. -/
def textFacets (bytes : Bytes) : Except CodecError (List Facet) :=
  let lines := wordLines ((byteLines [] bytes).drop 1)
  readSolid (lines.length + 1) lines

/-! ## Meshes

A vertex is known by its bits, so two zeros of different sign are two vertices. Facets are
numbered in the order of the file. -/

/-- The number of a vertex in a list, and the list with it. -/
def number (p : Point) (vertices : Array Point) : UInt64 × Array Point :=
  match vertices.idxOf? p with
  | some i => (i.toUInt64, vertices)
  | none => (vertices.size.toUInt64, vertices.push p)

/-- Numbers the corners of facets; `vertices` are known already. -/
def numberFacets (vertices : Array Point) : List Facet → Array Point × List Face
  | [] => (vertices, [])
  | facet :: rest =>
    let (a, vertices) := number facet.a vertices
    let (b, vertices) := number facet.b vertices
    let (c, vertices) := number facet.c vertices
    let (vertices, faces) := numberFacets vertices rest
    (vertices, ⟨a, b, c⟩ :: faces)

/-- **The mesh of facets.** Corners with the same bits become one vertex. -/
def meshOf (facets : List Facet) : Mesh :=
  let (vertices, faces) := numberFacets #[] facets
  ⟨vertices.toList, faces, some (facets.map Facet.normal)⟩

/-- **The mesh of an STL file.** -/
def decode (bytes : Bytes) : Except CodecError Mesh := do
  if bytes.isEmpty then malformed "file is empty"
  let facets ← if isText bytes then textFacets bytes else binaryFacets bytes
  return meshOf facets

end Meshwork.Stl
