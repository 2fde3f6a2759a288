import Meshwork.Mesh.Basic
import Meshwork.Number.Decimal
import Meshwork.Text.Blank
import Meshwork.Text.Bytes

/-!
# OFF meshes

A text of lines. After the word `OFF` come the numbers of vertices and
faces, on the same line or the next; then one vertex a line and one polygon
a line. A polygon starts with the number of its corners and is cut into the
triangles around its first corner. `#` starts a comment, and lines without
anything else do not count.

Numbers behind the ones that are needed are read and dropped, on every kind of row. Lines
after the last face are not looked at.
-/

namespace Meshwork.Off

/-- The name of the format. -/
def name : String := "OFF"

/-- A line that holds something, with its number in the text. -/
structure Line where
  /-- The number, from one. -/
  number : Nat
  /-- The words on the line. -/
  words : List (List Char)

/-- The error of an OFF file. -/
def malformed {α : Type} (message : String) : Except CodecError α :=
  .error (.parse name message)

/-- The error of a word that is not what its place asks for. -/
def badWord {α : Type} (line : Nat) (word : List Char) : Except CodecError α :=
  let shown := String.ofList word
  malformed s!"line {line}: cannot parse '{shown}'"

/-- The words of a line before its comment. -/
def words (line : List Char) : List (List Char) := tokens (line.takeWhile (· ≠ '#'))

/-- **The lines of a text that hold something.** They keep the numbers that they have in the text,
for messages. -/
def lines (text : String) : List Line :=
  (((textLines text.toList).zipIdx 1).map fun (line, n) => Line.mk n (words line)).filter
    fun line => !line.words.isEmpty

/-- Reads every word of a line. -/
def readWords {α : Type} (read : List Char → Option α) (line : Nat) :
    List (List Char) → Except CodecError (List α)
  | [] => .ok []
  | word :: rest =>
    match read word with
    | none => badWord line word
    | some value => do
      let values ← readWords read line rest
      return value :: values

/-- A word that is a number of the machine. -/
def readIndex (word : List Char) : Option UInt64 := (readNat? UInt64.size word).map Nat.toUInt64

/-- Reads the numbers of vertices and faces. What follows them on their line
must be numbers too. -/
def readCounts (header : List (List Char)) (lines : List Line) :
    Except CodecError ((Nat × Nat) × List Line) := do
  let (counts, lines) ←
    match header, lines with
    | [], [] => malformed "missing element counts"
    | [], line :: lines => do
      let counts ← readWords readIndex line.number line.words
      pure (counts, lines)
    | header, lines => do
      let counts ← readWords readIndex 1 header
      pure (counts, lines)
  match counts with
  | vertices :: faces :: _ => return ((vertices.toNat, faces.toNat), lines)
  | _ => malformed "expected vertex and face counts"

/-- Reads `missing` of the `total` vertices, one a line. What follows the
coordinates must be numbers too. -/
def readVertices (total : Nat) : (missing : Nat) → List Line →
    Except CodecError (List Point × List Line)
  | 0, lines => .ok ([], lines)
  | _ + 1, [] => malformed s!"expected {total} vertices"
  | missing + 1, line :: lines => do
    match ← readWords Single.ofText? line.number line.words with
    | x :: y :: z :: _ =>
      let (vertices, lines) ← readVertices total missing lines
      return (⟨x, y, z⟩ :: vertices, lines)
    | _ => malformed s!"line {line.number}: vertex needs 3 coordinates"

/-- **The triangles of a polygon**: its first corner with each of its other sides. A polygon with
fewer than three corners has none. -/
def fan : List UInt64 → List Face
  | first :: a :: b :: rest => ⟨first, a, b⟩ :: fan (first :: b :: rest)
  | _ => []

/-- Reads `missing` of the `total` polygons, one a line. What follows the
corners must be numbers too. -/
def readFaces (total : Nat) : (missing : Nat) → List Line → Except CodecError (List Face)
  | 0, _ => .ok []
  | _ + 1, [] => malformed s!"expected {total} faces"
  | missing + 1, line :: lines => do
    match ← readWords readIndex line.number line.words with
    | [] => malformed s!"line {line.number}: empty face"
    | corners :: indices =>
      if corners.toNat < 3 ∨ indices.length < corners.toNat then
        malformed s!"line {line.number}: face needs at least 3 indices"
      else
        let faces ← readFaces total missing lines
        return fan (indices.take corners.toNat) ++ faces

/-- **The mesh of an OFF text.** What follows the faces is ignored. -/
def ofText (text : String) : Except CodecError Mesh := do
  match lines text with
  | [] => malformed "file is empty"
  | header :: lines =>
    match header.words with
    | ['O', 'F', 'F'] :: rest =>
      let ((vertexCount, faceCount), lines) ← readCounts rest lines
      let (vertices, lines) ← readVertices vertexCount vertexCount lines
      let faces ← readFaces faceCount faceCount lines
      return ⟨vertices, faces, none⟩
    | _ => malformed "missing 'OFF' header"

/-- **The mesh of an OFF file.** Bytes that are no text are an error of the format. -/
def decode (bytes : Bytes) : Except CodecError Mesh :=
  match Utf8.decode bytes with
  | .ok text => ofText text
  | .error fault => malformed fault.message

end Meshwork.Off
