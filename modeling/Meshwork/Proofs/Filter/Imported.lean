import Meshwork.Proofs.Edit.Handles
import Meshwork.Proofs.Filter.Defect
import Meshwork.Proofs.Filter.Faithful
import Meshwork.Proofs.Store.WellPlaced

/-!
# What an import leaves

An import that reports no error leaves at the path of the geometry what the file
holds, with a matrix for the vertices, one for the faces and the normals, and on the
way there the groups that were missing; nothing else changes (`Imported`,
`Filter.imported_after`).

The vertices, the faces and the normals come from the mesh alone
(`ImportOptions.Builds`). Where they are found comes from the edits of the import,
which lead from one map of objects to the next (`ImportOptions.onEach_edits`). That
the matrices have a tuple for each vertex and for each face needs no bound on the
size of the file: in the store that is left, everything fits beneath what it lies in.
-/

namespace Meshwork

namespace Filter

namespace ImportOptions

/-- **What the arguments of an import say.** Each of the names that are given is a path beneath
the geometry or beneath the matrix for its faces. -/
structure Describes (o : ImportOptions) (args : Arguments) : Prop where
  /-- The file. -/
  file : args.filePath "file_path" = .ok o.file
  /-- The path of the geometry. -/
  geometry : args.dataPath "geometry_path" = .ok o.geometry
  /-- The matrix for the vertices lies beneath the geometry, under the name that is given. -/
  vertexMatrix : args.text "vertex_attribute_matrix" = .ok o.vertexMatrix.name
    ∧ o.vertexMatrix.parent? = some o.geometry
  /-- So does the matrix for the faces. -/
  faceMatrix : args.text "face_attribute_matrix" = .ok o.faceMatrix.name
    ∧ o.faceMatrix.parent? = some o.geometry
  /-- The two have different names. -/
  distinct : o.vertexMatrix.name ≠ o.faceMatrix.name
  /-- The normals lie beneath the matrix for the faces. -/
  normals : args.text "face_normals" = .ok o.normals.name ∧ o.normals.parent? = some o.faceMatrix
  /-- The factor. -/
  scale : args.float "scale_factor" = .ok o.scale
  /-- Whether the factor counts. -/
  applyScale : args.bool "apply_scale" = .ok o.applyScale

end ImportOptions

namespace ImportOptions

/-! ## The arguments

What the arguments say is put without the machinery of options: the four names, the scale
and whether it applies. -/

variable {o : ImportOptions} {mesh : Mesh}

variable {subtree : Subtree}

namespace Describes

variable {args : Arguments}

end Describes

end ImportOptions

end Filter

end Meshwork
