import Meshwork.DataArray
import Meshwork.Geometry.Basic

/-!
# Data objects

Four kinds of object live in a store. Every one but an array can hold
others beneath it. An object has no name and no place of its own; both
belong to the store.
-/

namespace Meshwork

/-- **An attribute matrix**: a number of tuples that every array beneath it shares. The arrays
themselves are objects of the store and lie beneath it. -/
structure AttributeMatrix where
  /-- The number of tuples. -/
  tupleCount : UInt64
deriving DecidableEq, Repr

/-- The kind of an object. -/
inductive ObjectKind where
  /-- A group. -/
  | group
  /-- A data array. -/
  | array
  /-- An attribute matrix. -/
  | attributeMatrix
  /-- A triangle geometry. -/
  | geometry
deriving DecidableEq, Repr

/-- The kind in messages. -/
def ObjectKind.text : ObjectKind → String
  | .group => "data group"
  | .array => "data array"
  | .attributeMatrix => "attribute matrix"
  | .geometry => "triangle geometry"

/-- **An object of a store.** What may lie beneath an object depends on its kind, and is a matter
of the store. -/
inductive DataObject where
  /-- A container without data. -/
  | group
  /-- A data array. -/
  | array (array : DataArray)
  /-- An attribute matrix. -/
  | attributeMatrix (matrix : AttributeMatrix)
  /-- A triangle geometry. -/
  | geometry (geometry : Geometry)
deriving DecidableEq

namespace DataObject

/-- The kind of the object. -/
def kind : DataObject → ObjectKind
  | group => .group
  | array _ => .array
  | attributeMatrix _ => .attributeMatrix
  | geometry _ => .geometry

/-- Whether other objects may lie beneath it. -/
def isContainer : DataObject → Bool
  | array _ => false
  | _ => true

/-- Equality of contents, floats compared as numbers. -/
def eqv : DataObject → DataObject → Bool
  | group, group => true
  | array a, array b => a.eqv b
  | attributeMatrix m, attributeMatrix n => m == n
  | geometry g, geometry h => g.eqv h
  | _, _ => false

/-- **The canonical rendering**: all that an object holds, as text. It is what fingerprints cover.
Records are shown with their names and fields, as for debugging. -/
def canonical : DataObject → String
  | group => "Group"
  | array a => "Array(" ++ a.canonical ++ ")"
  | attributeMatrix m =>
    "AttributeMatrix(AttributeMatrix \x7b tuple_count: " ++ toString m.tupleCount.toNat ++ " \x7d)"
  | geometry g => "Geometry(" ++ g.canonical ++ ")"

/-- What is shown of an object in the contents of a container. -/
def summary : DataObject → String
  | group => "data group"
  | array a =>
    "data array " ++ a.type.name ++ " [" ++ toString a.tupleCount ++ " x "
      ++ toString a.components.toNat ++ "]"
  | attributeMatrix m => s!"attribute matrix ({m.tupleCount.toNat} tuples)"
  | geometry g => s!"triangle geometry ({g.vertexCount} vertices, {g.faceCount} faces)"

end DataObject

end Meshwork
