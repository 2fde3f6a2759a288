import Meshwork.Container.Payload
import Meshwork.DataObject
import Meshwork.Json.Record
import Meshwork.Text.Hex

/-!
# Objects in a container

A record describes one object in JSON. Its member `kind` says which kind of
object it is and thereby which other members it has; numbers stand in
hexadecimal text of their bytes (`Payload`).

A record may describe no object: the text need not be hexadecimal, or the
numbers need not make up an array or a geometry. That is found out by
`Record.object`, not when the record is read, since the checksum of a
container is verified between the two.
-/

namespace Meshwork

open Json

/-- **The description of an object.** What an object holds in bulk is written as hexadecimal text,
and the rest in fields of its own. -/
inductive Record where
  /-- A group. -/
  | group
  /-- An array, with the bytes of its elements. -/
  | array (type : ElementType) (components : UInt64) (data : String)
  /-- An attribute matrix. -/
  | attributeMatrix (tupleCount : UInt64)
  /-- A geometry, with the bytes of its coordinates and its corners. -/
  | geometry (vertices faces : String) (vertexData faceData : Option String)
deriving DecidableEq

namespace Record

/-! ## Objects

An object is described by its kind, its sizes and names, and texts for its numbers. Making
an object of a description decodes the texts and checks what the type of the object
demands. -/

/-- **The description of an object.** -/
def ofObject : DataObject → Record
  | .group => group
  | .array a => array a.type a.components (Hex.encode (Payload.ofElements a.elements))
  | .attributeMatrix m => attributeMatrix m.tupleCount
  | .geometry g =>
    geometry (Hex.encode (Payload.ofPoints g.vertices.toList)) (Hex.encode (Payload.ofFaces g.faces))
      g.vertexData g.faceData

/-- **Why a record describes no object.** The message of an error is made from it, together with
the path of the record. -/
inductive Fault where
  /-- The text is not hexadecimal. -/
  | text (cause : Hex.Fault)
  /-- The bytes are not the values of their type. -/
  | payload (cause : Payload.Fault)
  /-- The numbers are no points or no triangles. -/
  | notTriples
  /-- The values are no array. -/
  | array (cause : ArrayError)
  /-- The mesh is no geometry. -/
  | geometry (cause : GeometryError)
deriving DecidableEq

/-- The text of a fault. -/
def Fault.message : Fault → String
  | text cause => cause.message
  | payload cause => cause.message
  | notTriples => "vertex or face data is not a multiple of 3"
  | array cause => cause.message
  | geometry cause => cause.message

/-- The bytes of a text. -/
def readBytes (text : String) : Except Fault Bytes := (Hex.decode text).mapError .text

/-- The numbers of a text, each over `width` bytes. -/
def readWords (width : Nat) (text : String) : Except Fault (List Nat) := do
  let data ← readBytes text
  (Payload.words width data).mapError .payload

/-- The geometry of coordinates and corners. -/
def readGeometry (vertices faces : String) : Except Fault Geometry := do
  let coordinates ← readWords 4 vertices
  let corners ← readWords 8 faces
  if coordinates.length % 3 ≠ 0 ∨ corners.length % 3 ≠ 0 then throw .notTriples
  let points := Payload.points (coordinates.map Single.ofNat)
  let triangles := Payload.faces (corners.map Nat.toUInt64)
  (Geometry.ofMesh points.toArray triangles).mapError .geometry

/-- **The object that a record describes.** The checks are those with which an array or a geometry
is made anywhere else. -/
def object : Record → Except Fault DataObject
  | group => .ok .group
  | attributeMatrix tupleCount => .ok (.attributeMatrix ⟨tupleCount⟩)
  | array type components data => do
    let bytes ← readBytes data
    let elements ← (Payload.elements type bytes).mapError .payload
    let array ← (DataArray.ofElements elements components).mapError .array
    return .array array
  | geometry vertices faces vertexData faceData => do
    let geometry ← readGeometry vertices faces
    return .geometry { geometry with vertexData, faceData }

/-! ## Writing

The members come in a fixed order, and a name that is not registered is left out. -/

/-- A member for a text that there may be. -/
def optionalMember (key : String) : Option String → List (String × Value)
  | none => []
  | some text => [(key, .string text)]

/-- **The record in JSON.** -/
def json : Record → Value
  | group => .object [("kind", .string "group")]
  | array type components data =>
    .object [("kind", .string "array"), ("data_type", .string type.tag),
      ("components", .nat components.toNat), ("data", .string data)]
  | attributeMatrix tupleCount =>
    .object [("kind", .string "attribute_matrix"), ("tuple_count", .nat tupleCount.toNat)]
  | geometry vertices faces vertexData faceData =>
    .object ([("kind", .string "geometry"), ("vertices", .string vertices),
      ("faces", .string faces)] ++ optionalMember "vertex_data" vertexData
        ++ optionalMember "face_data" faceData)

/-! ## Reading

A record may be an object or an array, as for any data of this kind; only the first is
ever written. Members that no kind has are passed over, as far as they can be read at all. -/

/-- The names of the kinds. -/
def kinds : List String := ["group", "array", "attribute_matrix", "geometry"]

/-- What a record consists of beside its kind. -/
inductive Body where
  /-- Fields in order. -/
  | items (items : List Value)
  /-- Members with their keys. -/
  | members (members : List (String × Value))

/-- A size of the machine. -/
def takeSize (value : Value) : Except Error UInt64 :=
  Nat.toUInt64 <$> value.natBelow "usize" UInt64.size

/-- The type of an element. -/
def takeType (value : Value) : Except Error ElementType := do
  let tag ← value.variant (ElementType.all.map ElementType.tag)
  return (ElementType.ofTag? tag).getD .int8

/-- A group has no other fields; members are passed over. -/
def takeGroup : Body → Except Error Record
  | .members _ => .ok group
  | .items items => do
    closeItems 0 items
    return group

/-- The fields of an array. -/
def takeArray : Body → Except Error Record
  | .items items => do
    let expected := "struct variant Record::Array with 3 elements"
    let (type, rest) ← demandItem 0 expected takeType items
    let (components, rest) ← demandItem 1 expected takeSize rest
    let (data, rest) ← demandItem 2 expected Value.text rest
    closeItems 3 rest
    return array type components data
  | .members members => do
    let (type, components, data) ← visitMembers (fun (type, components, data) key value => do
      if key = "data_type" then return (← field key type takeType value, components, data)
      else if key = "components" then return (type, ← field key components takeSize value, data)
      else if key = "data" then return (type, components, ← field key data Value.text value)
      else return (type, components, data)) (none, none, none) members
    return array (← demand "data_type" type) (← demand "components" components)
      (← demand "data" data)

/-- The fields of an attribute matrix. -/
def takeMatrix : Body → Except Error Record
  | .items items => do
    let (tupleCount, rest) ←
      demandItem 0 "struct variant Record::AttributeMatrix with 1 element" takeSize items
    closeItems 1 rest
    return attributeMatrix tupleCount
  | .members members => do
    let tupleCount ← visitMembers (fun tupleCount key value =>
      if key = "tuple_count" then field key tupleCount takeSize value
      else .ok tupleCount) none members
    return attributeMatrix (← demand "tuple_count" tupleCount)

/-- The fields of a geometry as far as they are known. -/
structure GeometryFields where
  /-- The coordinates. -/
  vertices : Option String
  /-- The corners. -/
  faces : Option String
  /-- The name of the matrix for the vertices. -/
  vertexData : Option (Option String)
  /-- The name of the matrix for the faces. -/
  faceData : Option (Option String)

/-- The fields of a geometry. -/
def takeGeometry : Body → Except Error Record
  | .items items => do
    let expected := "struct variant Record::Geometry with 4 elements"
    let (vertices, rest) ← demandItem 0 expected Value.text items
    let (faces, rest) ← demandItem 1 expected Value.text rest
    let (vertexData, rest) ← defaultItem none (Value.option? Value.text) rest
    let (faceData, rest) ← defaultItem none (Value.option? Value.text) rest
    closeItems 4 rest
    return geometry vertices faces vertexData faceData
  | .members members => do
    let g ← visitMembers (fun (g : GeometryFields) key value => do
      if key = "vertices" then
        return { g with vertices := ← field key g.vertices Value.text value }
      else if key = "faces" then
        return { g with faces := ← field key g.faces Value.text value }
      else if key = "vertex_data" then
        return { g with vertexData := ← field key g.vertexData (Value.option? Value.text) value }
      else if key = "face_data" then
        return { g with faceData := ← field key g.faceData (Value.option? Value.text) value }
      else return g) ⟨none, none, none, none⟩ members
    return geometry (← demand "vertices" g.vertices) (← demand "faces" g.faces)
      (g.vertexData.getD none) (g.faceData.getD none)

/-- The record of a kind. -/
def takeBody (kind : String) (body : Body) : Except Error Record :=
  if kind = "array" then takeArray body
  else if kind = "attribute_matrix" then takeMatrix body
  else if kind = "geometry" then takeGeometry body
  else takeGroup body

/-- The name of a kind. -/
def takeKind : Tree → Except Error String
  | .string (.ok name) =>
    if name ∈ kinds then .ok name else .error (.unknownVariant name kinds)
  | tree => .error (tree.unexpected "variant identifier")

/-- **Reads a record**: an object with a member `kind` at any place, or an
array that starts with the kind. `depth` says how deeply a member may
nest. -/
def ofTree (depth : Nat) : Tree → Except Error Record
  | .array items ending => do
    let cursor : Cursor := ⟨items, ending⟩
    match ← cursor.next with
    | none => throw (.missingField "kind")
    | some (first, rest) =>
      let kind ← takeKind first
      let values ← takeItems (Tree.value depth) rest.finish rest.items
      takeBody kind (.items values)
  | .object members ending => do
    let (kind, others) ← foldMembers (fun (kind, others) key tree => do
      if key = "kind" then return (← field key kind takeKind tree, others)
      else
        let value ← tree.value depth
        return (kind, (key, value) :: others)) ending (none, []) members
    takeBody (← demand "kind" kind) (.members others.reverse)
  | tree => .error (tree.unexpected "internally tagged enum Record")

end Record

end Meshwork
