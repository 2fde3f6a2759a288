import Meshwork.Number.Arithmetic
import Meshwork.Number.Layout
import Meshwork.Text.Quoted

/-!
# Triangle geometries

A triangle geometry is a list of vertices shared by triangular faces. The
type carries that every corner of a face is a vertex, so a face can always
be measured.

Data per vertex and per face is not part of the geometry: it lies in the
store below it, in attribute matrices whose names the geometry registers.
`Geometry.requiredTuples?` says how many tuples a matrix of some name must
have.
-/

namespace Meshwork

/-- **A point of space.** The coordinates may also be no numbers: nothing is asked of them. -/
structure Point where
  /-- The first coordinate. -/
  x : Single
  /-- The second coordinate. -/
  y : Single
  /-- The third coordinate. -/
  z : Single
deriving DecidableEq, Repr, Inhabited

namespace Point

/-- The origin. -/
def origin : Point := ⟨.zero, .zero, .zero⟩

/-- The coordinates in order. -/
def coordinates (p : Point) : List Single := [p.x, p.y, p.z]

/-- Equality of the coordinates as numbers. -/
def eqv (p q : Point) : Bool := p.x.eqv q.x && p.y.eqv q.y && p.z.eqv q.z

/-- The point with every coordinate multiplied by `factor`. -/
def scale (factor : Single) (p : Point) : Point :=
  ⟨p.x * factor, p.y * factor, p.z * factor⟩

/-- The canonical rendering. -/
def canonical (p : Point) : String :=
  bracketed (p.coordinates.map (Single.write .canonical))

end Point

/-- **A triangle**: the numbers of its corners in the list of vertices. Which corner comes first
does not matter, but the direction decides where the normal points. -/
structure Face where
  /-- The first corner. -/
  a : UInt64
  /-- The second corner. -/
  b : UInt64
  /-- The third corner. -/
  c : UInt64
deriving DecidableEq, Repr

namespace Face

/-- The corners in order. -/
def corners (f : Face) : List UInt64 := [f.a, f.b, f.c]

/-- Whether two corners are the same vertex. -/
def isDegenerate (f : Face) : Bool := f.a == f.b || f.b == f.c || f.a == f.c

/-- Whether every corner is one of `count` vertices. -/
def inRange (count : Nat) (f : Face) : Prop := ∀ i ∈ f.corners, i.toNat < count

instance (count : Nat) (f : Face) : Decidable (f.inRange count) :=
  List.decidableBAll (fun i : UInt64 => i.toNat < count) f.corners

/-- The canonical rendering. -/
def canonical (f : Face) : String := bracketed (f.corners.map fun i => toString i.toNat)

end Face

/-! ## Geometries

What can be wrong with a mesh is found by going through the faces in order, so the first
corner out of range is told. Names for data are registered later, and are not checked
against anything here. -/

/-- **What is wrong with a mesh.** The first is found when a geometry is made, the second by the
manifold check. -/
inductive GeometryError where
  /-- The face at position `face` has a corner that is no vertex. -/
  | indexOutOfRange (face : Nat) (index : UInt64) (vertexCount : Nat)
  /-- More than two faces share the edge between `a` and `b`. -/
  | nonManifoldEdge (a b : UInt64) (count : Nat)
deriving DecidableEq, Repr

/-- The text of an error. -/
def GeometryError.message : GeometryError → String
  | .indexOutOfRange face index vertexCount =>
    s!"face {face} references vertex {index.toNat}, but the mesh has {vertexCount} vertices"
  | .nonManifoldEdge a b count =>
    s!"edge ({a.toNat}, {b.toNat}) is shared by {count} faces; mesh is not manifold"

/-- **A triangle geometry.** That corners are vertices is kept as a proof, so looking one up never
fails. -/
structure Geometry where
  /-- The vertices. -/
  vertices : Array Point
  /-- The faces. -/
  faces : List Face
  /-- Every corner of a face is a vertex. -/
  inRange : ∀ f ∈ faces, f.inRange vertices.size
  /-- The name of the matrix that holds the data per vertex. -/
  vertexData : Option String
  /-- The name of the matrix that holds the data per face. -/
  faceData : Option String
deriving DecidableEq

namespace Geometry

/-- The first corner that is no vertex, with the position of its face; faces
count from `face`. -/
def outOfRange? (count : Nat) (face : Nat) : List Face → Option (Nat × UInt64)
  | [] => none
  | f :: rest =>
    match f.corners.find? (count ≤ ·.toNat) with
    | some index => some (face, index)
    | none => outOfRange? count (face + 1) rest

/-- Nothing is reported exactly if every corner of every face is the number of a vertex. The faces
are searched in order, from the one numbered `face` on. -/
theorem outOfRange?_eq_none_iff {count face : Nat} {faces : List Face} :
    outOfRange? count face faces = none ↔ ∀ f ∈ faces, f.inRange count := by
  induction faces generalizing face with
  | nil => simp [outOfRange?]
  | cons f rest ih =>
    unfold outOfRange?
    split <;> rename_i h
    -- A corner of this face is the one reported, so the face is not in range.
    · have hm := List.mem_of_find?_eq_some h
      have hp := List.find?_some h
      simp only [reduceCtorEq, List.mem_cons, forall_eq_or_imp, false_iff, not_and]
      intro hf
      have := hf _ hm
      simp at hp
      omega
    -- No corner of this face is out of range, so the others decide.
    · rw [ih]
      simp only [List.mem_cons, forall_eq_or_imp, iff_and_self]
      intro _ i hi
      have := List.find?_eq_none.1 h i hi
      simpa using this

/-- **A geometry of given vertices and faces**, without data. The first
corner that is no vertex is the error. -/
def ofMesh (vertices : Array Point) (faces : List Face) : Except GeometryError Geometry :=
  match h : outOfRange? vertices.size 0 faces with
  | some (face, index) => .error (.indexOutOfRange face index vertices.size)
  | none => .ok ⟨vertices, faces, outOfRange?_eq_none_iff.1 h, none, none⟩

/-- The geometry without vertices. It stands for one that is not read yet. -/
def empty : Geometry := ⟨#[], [], by simp, none, none⟩

/-- Registers the matrix that holds the data per vertex. -/
def withVertexData (g : Geometry) (name : String) : Geometry :=
  { g with vertexData := some name }

/-- Registers the matrix that holds the data per face. -/
def withFaceData (g : Geometry) (name : String) : Geometry :=
  { g with faceData := some name }

/-- The number of vertices. -/
def vertexCount (g : Geometry) : Nat := g.vertices.size

/-- The number of faces. -/
def faceCount (g : Geometry) : Nat := g.faces.length

/-- **How many tuples a matrix of this name must have** below the geometry:
one per vertex or one per face, if the name is registered for them. A name
registered for both counts vertices. -/
def requiredTuples? (g : Geometry) (name : String) : Option Nat :=
  if g.vertexData = some name then some g.vertexCount
  else if g.faceData = some name then some g.faceCount
  else none

/-- The geometry with every coordinate multiplied by `factor`. -/
def scale (factor : Single) (g : Geometry) : Geometry :=
  { g with
    vertices := g.vertices.map (Point.scale factor)
    inRange := by simpa using g.inRange }

/-- The positions of the degenerate faces. -/
def degenerateFaces (g : Geometry) : List Nat :=
  (g.faces.zipIdx.filter fun (f, _) => f.isDegenerate).map Prod.snd

/-- The smallest box around the vertices, as its least and its greatest
corner. -/
def bounds? (g : Geometry) : Option (Point × Point) :=
  match g.vertices.toList with
  | [] => none
  | first :: rest =>
    some (rest.foldl (fun (low, high) p =>
      (⟨low.x.min p.x, low.y.min p.y, low.z.min p.z⟩,
       ⟨high.x.max p.x, high.y.max p.y, high.z.max p.z⟩)) (first, first))

/-- Equality of the coordinates as numbers, and of all else. -/
def eqv (g h : Geometry) : Bool :=
  pairwiseEqv Point.eqv g.vertices.toList h.vertices.toList && g.faces == h.faces
    && g.vertexData == h.vertexData && g.faceData == h.faceData

/-- The canonical rendering. -/
def canonical (g : Geometry) : String :=
  "TriangleGeometry \x7b vertices: " ++ bracketed (g.vertices.toList.map Point.canonical)
    ++ ", faces: " ++ bracketed (g.faces.map Face.canonical)
    ++ ", vertex_data: " ++ quotedOption g.vertexData
    ++ ", face_data: " ++ quotedOption g.faceData ++ " \x7d"

end Geometry

end Meshwork
