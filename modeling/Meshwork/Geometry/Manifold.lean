import Meshwork.Geometry.Basic

/-!
# The manifold check

On a surface an edge belongs to one face, at its boundary, or to two. The
check counts, for every pair of vertices, the faces that have both as
corners, and reports the least pair with more than two. A degenerate face
counts once for its one edge.

The edges are sorted, so that equal ones stand together: the first long run
is the least edge, and its length the number of faces.

Two faces on one pair of vertices are fine however they lie, and so is a face given twice:
nothing but the number of faces is asked about.
-/

namespace Meshwork

/-- **An edge**: two different vertices, the smaller number first. So the two directions of an
edge are one and the same. -/
structure Edge where
  /-- The smaller number. -/
  low : UInt64
  /-- The greater number. -/
  high : UInt64
deriving DecidableEq, Repr

namespace Edge

/-- The edge between two vertices; none if they are the same. -/
def between? (i j : UInt64) : Option Edge :=
  if i < j then some ⟨i, j⟩ else if j < i then some ⟨j, i⟩ else none

/-- Whether an edge stands before another or is the same: by the smaller
vertex, then by the greater. -/
def le (d e : Edge) : Bool := d.low < e.low || (d.low == e.low && d.high ≤ e.high)

end Edge

/-- The edges of a face, each once. -/
def Face.edges (f : Face) : List Edge :=
  ([Edge.between? f.a f.b, Edge.between? f.b f.c, Edge.between? f.c f.a].filterMap id).eraseDups

namespace Geometry

/-- The edges of all faces, an edge as often as faces have it. -/
def edges (g : Geometry) : List Edge := g.faces.flatMap Face.edges

/-- The least edge of more than two faces, and how many faces have it. -/
def overSharedEdge? (g : Geometry) : Option (Edge × Nat) :=
  ((g.edges.mergeSort Edge.le).splitBy (· == ·)).findSome? fun run =>
    match run with
    | [] => none
    | edge :: _ => if 2 < run.length then some (edge, run.length) else none

/-- **The manifold check**: no edge belongs to more than two faces. Of several such edges the
least is reported. -/
def checkManifold (g : Geometry) : Except GeometryError Unit :=
  match g.overSharedEdge? with
  | some (edge, count) => .error (.nonManifoldEdge edge.low edge.high count)
  | none => .ok ()

end Geometry

end Meshwork
