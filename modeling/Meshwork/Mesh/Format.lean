import Meshwork.FilePath
import Meshwork.Mesh.Off
import Meshwork.Mesh.Stl

/-!
# Choosing the format of a mesh file

The extension of a file name, in any case, says which format to read. A file
without a known extension is read as STL.
-/

namespace Meshwork

/-- **A format of mesh files.** Each has a list of extensions by which it is recognized. -/
inductive MeshFormat where
  /-- Facets with normals. -/
  | stl
  /-- Vertices and polygons. -/
  | off
deriving DecidableEq, Repr

namespace MeshFormat

/-- Every format, in the order in which extensions are looked up. -/
def all : List MeshFormat := [stl, off]

/-- The name of the format. -/
def name : MeshFormat → String
  | stl => Stl.name
  | off => Off.name

/-- The extensions of the format, in lower case. -/
def extensions : MeshFormat → List String
  | stl => ["stl"]
  | off => ["off"]

/-- Reads a file of the format. -/
def decode : MeshFormat → Bytes → Except CodecError Mesh
  | stl => Stl.decode
  | off => Off.decode

/-- **The format of a file name**, if its extension is known. Letters of either case will do. -/
def ofPath? (path : String) : Option MeshFormat :=
  (FilePath.extension? path).bind fun extension =>
    let lower := String.ofList (extension.toList.map Char.toLower)
    all.find? fun format => format.extensions.contains lower

/-- The format of files with an unknown extension. -/
def fallback : MeshFormat := stl

end MeshFormat

end Meshwork
