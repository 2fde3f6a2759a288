import Meshwork.Filter.Input
import Meshwork.Geometry.Manifold
import Meshwork.Geometry.Normals
import Meshwork.Mesh.Format

/-!
# Importing a mesh

The filter reads a mesh file into a new geometry. Beneath the geometry come
an attribute matrix for the vertices and one for the faces, and in the
latter an array with the normal of each face: the one that the file gives,
unless it gives none or the zero vector, and otherwise the one that the
corners determine.

The plan announces the same objects around an empty geometry, since the
file is read only when the work is done.

The four paths are that of the geometry and three beneath it, whose names are arguments.
Vertices are scaled before normals are computed from them, while stored normals are taken
as they are.
-/

namespace Meshwork.Filter

/-- **What is to be imported, and where to.** The paths of the matrices and of the normals are
built from names, below that of the geometry. -/
structure ImportOptions where
  /-- The mesh file. -/
  file : String
  /-- The path of the geometry. -/
  geometry : DataPath
  /-- The path of the matrix for the vertices. -/
  vertexMatrix : DataPath
  /-- The path of the matrix for the faces. -/
  faceMatrix : DataPath
  /-- The path of the array of normals. -/
  normals : DataPath
  /-- The factor for the coordinates. -/
  scale : Double
  /-- Whether the factor counts. -/
  applyScale : Bool

namespace ImportOptions

/-- The path of a name that an argument gives. -/
def pathOfName (above : DataPath) (key : String) (args : Arguments) : Except Findings DataPath := do
  let name ← argument (args.text key)
  (above.join name).mapError fun e =>
    .ofError .invalidPath s!"parameter '{key}': invalid name '{name}': {e.message}"

/-- The options in the arguments. -/
def ofArguments (args : Arguments) : Except Findings ImportOptions := do
  let geometry ← argument (args.dataPath "geometry_path")
  let vertexMatrix ← pathOfName geometry "vertex_attribute_matrix" args
  let faceMatrix ← pathOfName geometry "face_attribute_matrix" args
  if vertexMatrix = faceMatrix then
    throw (.ofError .duplicatePath
      s!"vertex and face attribute matrices are both named '{vertexMatrix.name}'")
  let normals ← pathOfName faceMatrix "face_normals" args
  let file ← argument (args.filePath "file_path")
  let scale ← argument (args.float "scale_factor")
  let applyScale ← argument (args.bool "apply_scale")
  return { file, geometry, vertexMatrix, faceMatrix, normals, scale, applyScale }

/-- Whether the factor changes anything. -/
def scales (o : ImportOptions) : Bool := o.applyScale && !o.scale.eqv .one

/-- The array of normals. -/
def normalsArray (normals : List Point) : Except Findings DataArray :=
  (DataArray.ofElements (.float32 (normals.flatMap Point.coordinates)) 3).mapError fun e =>
    .ofError .internal e.message

/-- **The geometry with its matrices and its normals.** It is brought to the store as a whole, so
there is never a geometry without its matrices. -/
def subtree (o : ImportOptions) (geometry : Geometry) (normals : List Point) :
    Except Findings Subtree := do
  let array ← normalsArray normals
  let vertexMatrix : AttributeMatrix := ⟨geometry.vertexCount.toUInt64⟩
  let faceMatrix : AttributeMatrix := ⟨geometry.faceCount.toUInt64⟩
  let geometry := (geometry.withVertexData o.vertexMatrix.name).withFaceData o.faceMatrix.name
  let faces := (Subtree.leaf (.attributeMatrix faceMatrix)).withChild o.normals.name
    (.leaf (.array array))
  return ((Subtree.leaf (.geometry geometry)).withChild o.vertexMatrix.name
    (.leaf (.attributeMatrix vertexMatrix))).withChild o.faceMatrix.name faces

/-- The edits that bring a geometry to its path. -/
def edits (o : ImportOptions) (subtree : Subtree) : List Edit :=
  (o.geometry.parent?.map Edit.groups).toList ++ [.insert o.geometry subtree false]

/-- What is noticed before the file is read. -/
def notices (o : ImportOptions) : Findings :=
  let extension : Findings :=
    match MeshFormat.ofPath? o.file with
    | some _ => .none
    | none =>
      .ofWarning .unknownExtension
        s!"'{o.file}' has no recognised mesh extension; reading it as {MeshFormat.fallback.name}"
  let scale : Findings :=
    if !o.applyScale && !o.scale.eqv .one then
      let shown := o.scale.write .plain
      .ofWarning .scaleIgnored s!"scale factor {shown} is ignored because apply_scale is false"
    else .none
  extension ++ scale

/-- A mesh that is no geometry. -/
def invalid (o : ImportOptions) (e : GeometryError) : Findings :=
  .ofError .invalidGeometry s!"{o.file}: {e.message}"

/-- What is noticed about the faces. -/
def faceNotices (g : Geometry) : Findings :=
  match g.degenerateFaces with
  | [] => .none
  | first :: rest =>
    .ofWarning .degenerateFaces
      s!"{rest.length + 1} degenerate face(s), first at index {first}"

/-- A stored normal, or the computed one in place of the zero vector. -/
def chooseNormal (stored computed : Point) : Point :=
  if stored.eqv .origin then computed else stored

/-- **The normals of the faces.** Stored ones count if there is one for each face. Where a stored
one is not used, the one computed from the corners is. -/
def settleNormals (stored : Option (List Point)) (computed : List Point) : List Point :=
  match stored with
  | none => computed
  | some stored =>
    if stored.length = computed.length then List.zipWith chooseNormal stored computed
    else computed

/-- **The geometry of a mesh**, with its normals and what is noticed. Everything that is checked
is checked here, before the store is touched. -/
def build (o : ImportOptions) (mesh : Mesh) :
    Except Findings (Geometry × List Point × Findings) := do
  let geometry ← (Geometry.ofMesh mesh.vertices.toArray mesh.faces).mapError o.invalid
  geometry.checkManifold.mapError o.invalid
  let notices := faceNotices geometry
  let geometry := if o.scales then geometry.scale o.scale.toSingle else geometry
  return (geometry, settleNormals mesh.normals geometry.faceNormals, notices)

end ImportOptions

/-- The name of the filter. -/
def importName : String := "import_geometry_from_file"

/-- What is announced. -/
def planImport (files : FileSystem) (args : Arguments) : Except Findings Plan := do
  let o ← ImportOptions.ofArguments args
  requireFile files o.file
  match o.subtree .empty [] with
  | .ok subtree => return ⟨o.notices, o.edits subtree⟩
  | .error findings => return ⟨o.notices ++ findings, (o.geometry.parent?.map Edit.groups).toList⟩

/-- Reads the mesh file. -/
def readMesh (files : FileSystem) (o : ImportOptions) : Except Findings Mesh := do
  let bytes ← readInput files o.file
  let format := (MeshFormat.ofPath? o.file).getD .fallback
  (format.decode bytes).mapError (CodecError.finding o.file)

/-- Does the work for a mesh that was read. -/
def importMesh (o : ImportOptions) (mesh : Mesh) : Run Outcome := do
  if ← Run.isStopped then return .failed (.ofError .cancelled "import cancelled")
  match o.build mesh with
  | .error findings => return .failed findings
  | .ok (geometry, normals, notices) =>
    Run.report importName "staging geometry"
    match o.subtree geometry normals with
    | .ok subtree => return ⟨notices, o.edits subtree⟩
    | .error findings => return .failed (notices ++ findings)

/-- Does the work. -/
def performImport (args : Arguments) : Run Outcome := do
  match ImportOptions.ofArguments args with
  | .error findings => return .failed findings
  | .ok o =>
    Run.report importName s!"reading {o.file}"
    match readMesh (← Run.files) o with
    | .error findings => return .failed findings
    | .ok mesh => importMesh o mesh

/-- The parameters of the filter. -/
def importParameters : List Parameter :=
  [⟨"file_path", "Input Mesh File", "STL (ASCII or binary) or OFF file to read", .filePath, none,
      some .nonEmpty⟩,
    ⟨"geometry_path", "Geometry Path", "Where the new triangle geometry is created", .dataPath,
      none, none⟩,
    ⟨"vertex_attribute_matrix", "Vertex Attribute Matrix",
      "Name of the per-vertex attribute matrix", .text, some (.text "Vertex Data"), none⟩,
    ⟨"face_attribute_matrix", "Face Attribute Matrix", "Name of the per-face attribute matrix",
      .text, some (.text "Face Data"), none⟩,
    ⟨"face_normals", "Face Normals", "Name of the face normals array", .text,
      some (.text "Face Normals"), none⟩,
    ⟨"scale_factor", "Scale Factor", "Uniform scale applied to vertex coordinates", .float,
      some (.float .one), some (.range (.excluded .zero) (.included (.ofInt 1000000)))⟩,
    ⟨"apply_scale", "Apply Scale", "Whether scale_factor is applied", .bool, some (.bool false),
      none⟩]

/-- **Reads a mesh file into a new geometry.** The plan has the same tree around an empty
geometry. -/
def importGeometry : Filter where
  info :=
    { name := importName
      uuid := .ofNat 0x5c3a7f1e2b0d4c6a9e8f1a2b3c4d5e01
      title := "Import Geometry From File"
      tags := ["io", "input", "read", "import", "stl", "off", "geometry"]
      version := 1 }
  parameters := importParameters
  plan files _ args :=
    match planImport files args with
    | .ok plan => plan
    | .error findings => .failed findings
  perform _ args := performImport args

end Meshwork.Filter
