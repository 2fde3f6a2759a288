import Meshwork.Geometry.Basic

/-!
# Face normals

The normal of a face is the cross product of two of its sides, divided by
its length. The order of the corners decides on which side of the face it
points. A face without area has no direction and gets the zero vector.

Everything is computed with floats of 32 bits, one operation after another, so the order
of the operations is part of the result.
-/

namespace Meshwork

namespace Point

instance : Sub Point := ⟨fun p q => ⟨p.x - q.x, p.y - q.y, p.z - q.z⟩⟩

/-- The cross product. -/
def cross (u v : Point) : Point :=
  ⟨u.y * v.z - u.z * v.y, u.z * v.x - u.x * v.z, u.x * v.y - u.y * v.x⟩

/-- The length. -/
def length (v : Point) : Single := (v.x * v.x + v.y * v.y + v.z * v.z).sqrt

/-- The vector of the same direction and length one; zero if the length is
not positive. -/
def normalize (v : Point) : Point :=
  let length := v.length
  if Single.zero.lt length then ⟨v.x / length, v.y / length, v.z / length⟩ else origin

end Point

namespace Geometry

/-- The vertex of the given number. -/
def vertex (g : Geometry) (i : UInt64) : Point := g.vertices.getD i.toNat .origin

/-- The unit normal of a face. -/
def faceNormal (g : Geometry) (f : Face) : Point :=
  let p := g.vertex f.a
  ((g.vertex f.b - p).cross (g.vertex f.c - p)).normalize

/-- **The unit normals of all faces**, in order. They are computed from the corners, whatever a
file says. -/
def faceNormals (g : Geometry) : List Point := g.faces.map g.faceNormal

end Geometry

end Meshwork
