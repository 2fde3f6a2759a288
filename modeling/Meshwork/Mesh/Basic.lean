import Meshwork.Geometry.Basic

/-!
# Mesh files

What the readers of mesh files have in common: the mesh that a file holds,
before its faces are checked against its vertices, and the error of a file
that is not of its format.

A mesh may be anything a file says: corners that are no vertices, faces without area,
normals that do not belong. What is made of it later finds that out.
-/

namespace Meshwork

/-- **The contents of a mesh file.** It is what a file says, and has not been checked yet. -/
structure Mesh where
  /-- The vertices. -/
  vertices : List Point
  /-- The faces; a corner need not be a vertex. -/
  faces : List Face
  /-- The normals of the faces, if the format has them. -/
  normals : Option (List Point)
deriving DecidableEq

/-- **Why data is not of its format.** Mesh files only know the first of these, and containers all
of them. -/
inductive CodecError where
  /-- The data is not of the format. -/
  | parse (format message : String)
  /-- A container of a later version. -/
  | unsupportedVersion (found supported : UInt32)
  /-- A container whose objects are not those that its checksum covers. -/
  | checksumMismatch (recorded computed : String)
  /-- A container with an object that cannot be. -/
  | invalidObject (path message : String)
deriving DecidableEq, Repr

/-- The text of an error. -/
def CodecError.message : CodecError → String
  | .parse format message => s!"malformed {format} data: {message}"
  | .unsupportedVersion found supported =>
    s!"container version {found.toNat} is newer than supported version {supported.toNat}"
  | .checksumMismatch recorded computed =>
    s!"container checksum mismatch (recorded {recorded}, computed {computed})"
  | .invalidObject path message => s!"container object '{path}' cannot be restored: {message}"

end Meshwork
