import Meshwork.Container.Record
import Meshwork.Proofs.Container.Payload
import Meshwork.Proofs.Geometry.Manifold
import Meshwork.Proofs.Json.Pretty
import Meshwork.Proofs.Text.Hex

/-!
# Records read back

A record is read back from its JSON (`Record.ofTree_tree`). The object that is
read from it is the one that it describes (`Record.object_eq_ok_iff`): its texts
write the bytes of the numbers of the object.

A record describes the object that it was made of (`Record.object_ofObject`). For
an array this rests on what every array keeps with it: the reader makes arrays by
`DataArray.ofElements`, which asks that the elements divide into tuples, and whoever
made the array had to know as much, be it from elements that were given or from a
number of tuples.
-/

namespace Meshwork

open Json

namespace Record

/-! ## Objects -/

/-- **A record describes an object** if it has its kind and its sizes and names, and its texts
write the bytes of its numbers, in digits of either case. -/
def Describes : Record → DataObject → Prop
  | group, .group => True
  | array type components data, .array a =>
    a.type = type ∧ a.components = components
      ∧ Hex.decode data = .ok (Payload.ofElements a.elements)
  | attributeMatrix tupleCount, .attributeMatrix m => m.tupleCount = tupleCount
  | geometry vertices faces vertexData faceData, .geometry g =>
    Hex.decode vertices = .ok (Payload.ofPoints g.vertices.toList)
      ∧ Hex.decode faces = .ok (Payload.ofFaces g.faces)
      ∧ g.vertexData = vertexData ∧ g.faceData = faceData
  | _, _ => False

theorem readBytes_eq_ok_iff {text : String} {data : Bytes} :
    readBytes text = .ok data ↔ Hex.decode text = .ok data := mapError_eq_ok_iff

theorem readWords_eq_ok_iff {width : Nat} {text : String} {values : List Nat} :
    readWords width text = .ok values
      ↔ ∃ data, Hex.decode text = .ok data ∧ Payload.words width data = .ok values := by
  unfold readWords
  simp only [bind_eq_ok_iff, readBytes_eq_ok_iff, mapError_eq_ok_iff]

/-! ### What is described is read

The texts of a record are hexadecimal digits in either case. Whatever case was used, they
are decoded to the bytes that the object has. -/

/-- **A geometry is made up again** from its coordinates and corners. The corners are within
range, since they are those of a geometry, and so making one of them again cannot fail. -/
theorem readGeometry_of_decode {vertices faces : String} {g : Geometry}
    (hvertices : Hex.decode vertices = .ok (Payload.ofPoints g.vertices.toList))
    (hfaces : Hex.decode faces = .ok (Payload.ofFaces g.faces)) :
    readGeometry vertices faces = .ok ⟨g.vertices, g.faces, g.inRange, none, none⟩ := by
  -- The words are the coordinates and corners as numbers. Read back from these, they are the points
  -- and faces again, three of them at a time, so nothing is left over.
  have hcoordinates := readWords_eq_ok_iff.2 ⟨_, hvertices, Payload.words_ofPoints g.vertices.toList⟩
  have hcorners := readWords_eq_ok_iff.2 ⟨_, hfaces, Payload.words_ofFaces g.faces⟩
  have hpoints : Payload.points (((g.vertices.toList.flatMap Point.coordinates).map
      Single.toNat).map Single.ofNat) = g.vertices.toList := by
    rw [List.map_map, show Single.ofNat ∘ Single.toNat = id from funext Single.ofNat_toNat,
      List.map_id, Payload.points_coordinates]
  have htriangles : Payload.faces (((g.faces.flatMap Face.corners).map UInt64.toNat).map
      Nat.toUInt64) = g.faces := by
    rw [List.map_map, show Nat.toUInt64 ∘ UInt64.toNat = id from funext fun x => by simp,
      List.map_id, Payload.faces_corners]
  have hthrees : ¬ (((g.vertices.toList.flatMap Point.coordinates).map Single.toNat).length % 3 ≠ 0
      ∨ ((g.faces.flatMap Face.corners).map UInt64.toNat).length % 3 ≠ 0) := by
    rw [List.length_map, List.length_map, Payload.length_coordinates, Payload.length_corners]
    omega
  unfold readGeometry
  rw [hcoordinates, hcorners]
  simp only [Bind.bind, Except.bind, if_neg hthrees, hpoints, htriangles, Array.toArray_toList,
    Geometry.ofMesh_mesh]
  rfl

/-- **A record that describes an object is read as that object.** Of the pairs of a record and an
object only those of one kind are left. -/
theorem object_of_describes {r : Record} {o : DataObject} (h : r.Describes o) :
    r.object = .ok o := by
  cases r <;> cases o <;> first | exact h.elim | skip
  case group => rfl
  case attributeMatrix tupleCount m =>
    cases h
    rfl
  case array type components data a =>
    obtain ⟨rfl, rfl, hdata⟩ := h
    unfold object
    -- The bytes are decoded, made elements of the type, and divided into tuples; each of the three
    -- steps succeeds.
    refine bind_eq_ok_iff.2 ⟨_, readBytes_eq_ok_iff.2 hdata, bind_eq_ok_iff.2 ⟨a.elements, ?_,
      bind_eq_ok_iff.2 ⟨a, ?_, rfl⟩⟩⟩
    · exact mapError_eq_ok_iff.2 (Payload.elements_ofElements a.elements)
    · exact mapError_eq_ok_iff.2 a.ofElements_elements
  case geometry vertices faces vertexData faceData g =>
    obtain ⟨hvertices, hfaces, rfl, rfl⟩ := h
    unfold object
    exact bind_eq_ok_iff.2 ⟨_, readGeometry_of_decode hvertices hfaces, rfl⟩

/-! ### What is read is described

The converse takes apart a record that was read: each step of the reader that succeeds
shows one part of the description. -/

/-- A geometry that was read has the bytes of its texts. -/
theorem of_readGeometry_eq_ok {vertices faces : String} {g : Geometry}
    (h : readGeometry vertices faces = .ok g) :
    Hex.decode vertices = .ok (Payload.ofPoints g.vertices.toList)
      ∧ Hex.decode faces = .ok (Payload.ofFaces g.faces) := by
  unfold readGeometry at h
  obtain ⟨coordinates, hcoordinates, h⟩ := bind_eq_ok_iff.1 h
  obtain ⟨corners, hcorners, h⟩ := bind_eq_ok_iff.1 h
  obtain ⟨data, hdata, hwords⟩ := readWords_eq_ok_iff.1 hcoordinates
  obtain ⟨data', hdata', hwords'⟩ := readWords_eq_ok_iff.1 hcorners
  split at h <;> rename_i hthrees
  · cases h
  obtain ⟨hthree, hthree'⟩ := not_or.1 hthrees
  obtain ⟨hvertices, hfaces⟩ := Geometry.of_ofMesh_eq_ok (mapError_eq_ok_iff.1 h)
  rw [hvertices, hfaces, List.toList_toArray, hdata, hdata',
    Payload.ofPoints_of_words hwords (Nat.dvd_of_mod_eq_zero (not_not.1 hthree)),
    Payload.ofFaces_of_words hwords' (Nat.dvd_of_mod_eq_zero (not_not.1 hthree'))]
  exact ⟨rfl, rfl⟩

/-- **An object that was read is described** by its record. Whatever could be read was written in
digits of one case or the other, and its numbers make up the object. -/
theorem describes_of_object {r : Record} {o : DataObject} (h : r.object = .ok o) :
    r.Describes o := by
  cases r with
  | group =>
    obtain rfl := Except.ok.inj h
    trivial
  | attributeMatrix tupleCount =>
    obtain rfl := Except.ok.inj h
    rfl
  | array type components data =>
    unfold object at h
    -- The same three steps backwards: each of them determines what it was given.
    obtain ⟨bytes, hbytes, h⟩ := bind_eq_ok_iff.1 h
    obtain ⟨elements, helements, h⟩ := bind_eq_ok_iff.1 h
    obtain ⟨a, ha, h⟩ := bind_eq_ok_iff.1 h
    obtain rfl := pure_eq_ok_iff.1 h
    obtain ⟨rfl, rfl⟩ := DataArray.ofElements_eq_ok_iff.1 (mapError_eq_ok_iff.1 ha)
    obtain ⟨rfl, rfl⟩ := Payload.of_elements_eq_ok (mapError_eq_ok_iff.1 helements)
    exact ⟨rfl, rfl, readBytes_eq_ok_iff.1 hbytes⟩
  | geometry vertices faces vertexData faceData =>
    unfold object at h
    obtain ⟨g, hg, h⟩ := bind_eq_ok_iff.1 h
    obtain rfl := pure_eq_ok_iff.1 h
    obtain ⟨hvertices, hfaces⟩ := of_readGeometry_eq_ok hg
    exact ⟨hvertices, hfaces, rfl, rfl⟩

/-- **Reading a record gives the object that it describes**, and no other. The reader of records
is thus known by what records mean, and is not unfolded any more. -/
theorem object_eq_ok_iff {r : Record} {o : DataObject} : r.object = .ok o ↔ r.Describes o :=
  ⟨describes_of_object, object_of_describes⟩

/-! ### The record of an object

The writer's record uses lower-case digits. It describes its object, so it is read as that
object. -/

/-- **An object is read back** from the record that describes it. There is no condition on the
object, because every condition of the reader is one that objects carry with them. -/
theorem object_ofObject (o : DataObject) : (ofObject o).object = .ok o := by
  refine object_of_describes ?_
  cases o with
  | group => trivial
  | array a => exact ⟨rfl, rfl, Hex.decode_encode _⟩
  | attributeMatrix m => rfl
  | geometry g => exact ⟨Hex.decode_encode _, Hex.decode_encode _, rfl, rfl⟩

/-! ## JSON

One member of a record tells its kind, and decides which others are asked for. The reader
finds it wherever it stands; the writer puts it first. -/

/-- Every number of a record is a word. -/
theorem readable_json (r : Record) : r.json.Readable := by
  have hword : ∀ n : UInt64, (Value.nat n.toNat).Readable := fun n =>
    .number (Number.readsBack_natural n.toNat_lt)
  cases r with
  | group => exact .object (by simp [Value.Readable.string])
  | array type components data => exact .object (by simp [Value.Readable.string, hword])
  | attributeMatrix tupleCount => exact .object (by simp [Value.Readable.string, hword])
  | geometry vertices faces vertexData faceData =>
    cases vertexData <;> cases faceData <;>
      exact .object (by simp [optionalMember, Value.Readable.string])

theorem takeSize_nat (n : UInt64) : takeSize (.nat n.toNat) = .ok n := by
  have hword : n.toNat < UInt64.size := n.toNat_lt
  show Nat.toUInt64 <$> (if n.toNat < UInt64.size then Except.ok n.toNat else _) = _
  rw [if_pos hword]
  exact congrArg Except.ok n.ofNat_toNat

theorem takeType_tag (t : ElementType) : takeType (.string t.tag) = .ok t := by
  cases t <;> rfl

theorem takeKind_string {kind : String} (h : kind ∈ kinds) :
    takeKind (.string (.ok kind)) = .ok kind :=
  if_pos h

/-- An object that starts with its kind is read as the record of this kind with
the other members. -/
theorem ofTree_object {kind : String} {members : List (String × Value)} (depth : Nat)
    (hkind : kind ∈ kinds) (hkeys : ∀ m ∈ members, m.1 ≠ "kind")
    (hvalues : ∀ m ∈ members, m.2.tree.value depth = .ok m.2) :
    ofTree depth (Value.object (("kind", .string kind) :: members)).tree
      = takeBody kind (.members members) := by
  have hothers : ∀ others : List (String × Value), members.foldl
      (fun (state : Option String × List (String × Value)) m => (state.1, m :: state.2))
      (some kind, others) = (some kind, members.reverse ++ others) := by
    clear hkeys hvalues
    induction members with
    | nil => exact fun _ => rfl
    | cons m members ih =>
      intro others
      rw [List.foldl_cons, ih, List.reverse_cons, List.append_assoc, List.singleton_append]
  rw [Value.tree, Value.treeMembers, Value.tree]
  unfold ofTree
  simp only [foldMembers, if_true, field, takeKind_string hkind, Functor.map, Except.map, Bind.bind,
    Except.bind, Pure.pure, Except.pure]
  rw [foldMembers_treeMembers (fun state m => (state.1, m :: state.2)), hothers]
  · simp [demand]
  · intro state m hm
    simp [hkeys m hm, hvalues m hm]

/-- **A record is read back** from its JSON. The depth does not matter, since the members of a
record hold no further values. -/
theorem ofTree_tree (r : Record) (depth : Nat) : ofTree depth r.json.tree = .ok r := by
  have htext : ∀ text, (Value.string text).tree.value depth = .ok (.string text) := fun _ => rfl
  have hnat : ∀ n, (Value.nat n).tree.value depth = .ok (.nat n) := fun _ => rfl
  cases r with
  | group =>
    rw [json, ofTree_object depth (by decide) (by simp) (by simp)]
    rfl
  | array type components data =>
    rw [json, ofTree_object depth (by decide) (by simp) (by simp [htext, hnat]), takeBody, if_pos rfl]
    simp [takeArray, visitMembers, field, takeType_tag, takeSize_nat, Value.text, demand, Bind.bind,
      Except.bind, Pure.pure, Except.pure]
  | attributeMatrix tupleCount =>
    rw [json, ofTree_object depth (by decide) (by simp) (by simp [hnat]), takeBody,
      if_neg (by decide), if_pos rfl]
    simp [takeMatrix, visitMembers, field, takeSize_nat, demand, Bind.bind, Except.bind, Pure.pure,
      Except.pure]
  | geometry vertices faces vertexData faceData =>
    have hmembers : (geometry vertices faces vertexData faceData).json
      = .object (("kind", .string "geometry") :: ([("vertices", .string vertices),
        ("faces", .string faces)] ++ optionalMember "vertex_data" vertexData
        ++ optionalMember "face_data" faceData)) := rfl
    rw [hmembers, ofTree_object depth (by decide)
        (by cases vertexData <;> cases faceData <;> simp [optionalMember])
        (by cases vertexData <;> cases faceData <;> simp [optionalMember, htext]), takeBody,
      if_neg (by decide), if_neg (by decide), if_pos rfl]
    cases vertexData <;> cases faceData <;>
      simp [takeGeometry, visitMembers, field, demand, Value.text, Value.option?, optionalMember,
        Bind.bind, Except.bind, Pure.pure, Except.pure]

end Record

end Meshwork
