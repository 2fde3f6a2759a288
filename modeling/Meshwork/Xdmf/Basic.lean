import Meshwork.Store.Basic

/-!
# XDMF descriptors

A descriptor shows the geometries of a store to viewers that do not read
containers: one grid for each of them, with its triangles, its points and
the arrays of its two attribute matrices, all of it as rows of text.

`gridsOf` takes the grids from a store. How they are written is the matter
of `Meshwork.Xdmf.Document`.

What the grids hold are texts already, in rows; how many rows there are is counted from
these. A matrix that is registered but missing contributes no arrays, and neither does
anything in it that is not an array.
-/

namespace Meshwork.Xdmf

/-- **What the rows of an attribute belong to.** It also decides which of the two registered
matrices they come from. -/
inductive Center where
  /-- The vertices. -/
  | node
  /-- The faces. -/
  | cell
deriving DecidableEq, Repr

/-- **An array that belongs to vertices or faces.** All values are texts already, as they will
stand in the document. -/
structure Attribute where
  /-- The name of the array. -/
  name : String
  /-- What its rows belong to. -/
  center : Center
  /-- The type of its values. -/
  type : ElementType
  /-- The number of rows. -/
  rowCount : Nat
  /-- The number of values in a row. -/
  components : Nat
  /-- The rows. -/
  rows : List (List String)
deriving DecidableEq

/-- **A geometry with its arrays.** What is written of a geometry is all in it, so that writing
needs no store. -/
structure Grid where
  /-- The path of the geometry. -/
  name : String
  /-- The corners of each face. -/
  faces : List (List String)
  /-- The coordinates of each vertex. -/
  vertices : List (List String)
  /-- The arrays, those of the vertices first. -/
  attributes : List Attribute
deriving DecidableEq

/-- Values in rows of the same length; the last may be shorter. `fuel` bounds
the number of rows. -/
def rowsOf (components : Nat) : (fuel : Nat) → List String → List (List String)
  | 0, _ => []
  | fuel + 1, values =>
    if values.isEmpty then []
    else values.take components :: rowsOf components fuel (values.drop components)

/-- The attribute of an array. -/
def Attribute.ofArray (name : String) (center : Center) (a : DataArray) : Attribute where
  name := name
  center := center
  type := a.type
  rowCount := a.tupleCount
  components := a.components.toNat
  rows := rowsOf a.components.toNat a.size (a.elements.texts .plain fun b => if b then "1" else "0")

/-- The attributes of the arrays in a matrix below a path. -/
def attributesOf (s : Store) (path : DataPath) (center : Center) (matrix : Option String) :
    List Attribute :=
  match matrix.bind fun name => (path.join name).toOption with
  | none => []
  | some matrix =>
    ((s.children? matrix).getD []).filterMap fun path =>
      match s.get? path with
      | some (.array a) => some (.ofArray path.name center a)
      | _ => none

/-- **The grid of a geometry** at a path. The matrices are found under the names that the geometry
registers. -/
def Grid.ofGeometry (s : Store) (path : DataPath) (g : Geometry) : Grid where
  name := path.text
  faces := g.faces.map fun f => f.corners.map fun i => toString i.toNat
  vertices := g.vertices.toList.map fun p => p.coordinates.map (Single.write .plain)
  attributes := attributesOf s path .node g.vertexData ++ attributesOf s path .cell g.faceData

/-- **The grids of a store**, in order of their paths. Geometries without vertices or faces have
one, too. -/
def gridsOf (s : Store) : List Grid :=
  s.contents.filterMap fun (path, object) =>
    match object with
    | .geometry g => some (.ofGeometry s path g)
    | _ => none

end Meshwork.Xdmf
