import Meshwork.Proofs.Container.Record
import Meshwork.Proofs.Store.Fingerprint
import Meshwork.Proofs.Store.Refinement
import Meshwork.Proofs.Store.WellPlaced
import Meshwork.Proofs.Xdmf.Document

/-!
# A descriptor shows what is in the store

The numbers that a descriptor declares come from several places: the geometry, the matrices
beneath it, and each array. They agree by the placement rules: an array in a matrix that a
geometry registers has as many tuples as the geometry has vertices or faces, unless one name is
registered for both.

What is read from the text of a descriptor shows the geometries of the store in order, and
beneath each the arrays of its two matrices (`Xdmf.ShowsGeometry`). The rows of values are as many
and as long as declared (`Xdmf.render_shows`). For the geometry this is so by the way in which the
rows are made, one for each face or vertex. The rows of an array are cut from one long list of
values, so that the last one could be short; it is not, because an array is kept with the proof
that its elements divide into tuples (`Xdmf.fill_rows`).
-/

namespace Meshwork.Xdmf

open Markup

/-! ## Rows of values

The values of an array are cut into rows of one tuple each. That the last row is full is
what the shape of an array is for. -/

section Rows

variable {components fuel : Nat} {values : List String}

/-- The rows have all values, in order. -/
theorem flatten_rowsOf (hcomponents : 0 < components) (hfuel : values.length ≤ fuel) :
    (rowsOf components fuel values).flatten = values := by
  induction fuel generalizing values with
  | zero => rw [List.length_eq_zero_iff.1 (Nat.le_zero.1 hfuel)]; rfl
  | succ fuel ih =>
    rw [rowsOf]
    split <;> rename_i hempty
    · rw [List.isEmpty_iff.1 hempty]
      rfl
    · have hrest : (values.drop components).length ≤ fuel := by
        rw [List.length_drop]
        omega
      rw [List.flatten_cons, ih hrest, List.take_append_drop]

theorem rowsOf_ne_nil (hcomponents : 0 < components) :
    ∀ row ∈ rowsOf components fuel values, row ≠ [] := by
  induction fuel generalizing values with
  | zero => exact nofun
  | succ fuel ih =>
    rw [rowsOf]
    split <;> rename_i hempty
    · exact nofun
    · refine List.forall_mem_cons.2 ⟨fun htake => ?_, ih⟩
      rw [List.take_eq_nil_iff] at htake
      rcases htake with h | h
      · omega
      · exact hempty (List.isEmpty_iff.2 h)

/-- **Values that divide into rows** fill all of them. The fuel is only there for the recursion,
and the number of values is always enough. -/
theorem rowsOf_of_length_eq {count : Nat} (hcomponents : 0 < components)
    (hfuel : values.length ≤ fuel) (hlength : values.length = count * components) :
    (rowsOf components fuel values).length = count
      ∧ ∀ row ∈ rowsOf components fuel values, row.length = components := by
  -- Each row takes its components off the front, so the rest divides into one row fewer.
  induction fuel generalizing values count with
  | zero =>
    have hcount : count = 0 := by
      have hzero : count * components = 0 := hlength ▸ Nat.le_zero.1 hfuel
      rcases Nat.mul_eq_zero.1 hzero with h | h
      · exact h
      · omega
    exact ⟨hcount.symm, nofun⟩
  | succ fuel ih =>
    rw [rowsOf]
    cases count with
    | zero =>
      rw [Nat.zero_mul, List.length_eq_zero_iff] at hlength
      subst hlength
      exact ⟨rfl, nofun⟩
    | succ count =>
      rw [Nat.succ_mul] at hlength
      have hne : ¬ values.isEmpty := by
        rw [List.isEmpty_iff]
        rintro rfl
        simp only [List.length_nil] at hlength
        omega
      have hrest : (values.drop components).length = count * components := by
        rw [List.length_drop]
        omega
      obtain ⟨hcount, hrows⟩ := ih (by omega) hrest
      rw [if_neg hne]
      refine ⟨congrArg (· + 1) hcount, List.forall_mem_cons.2 ⟨?_, hrows⟩⟩
      rw [List.length_take]
      omega

end Rows

/-- **Rows are as many as declared, and each is as long.** These are the two numbers that are
declared as the dimensions of an item. -/
def Fill (rows : List (List String)) (rowCount components : Nat) : Prop :=
  rows.length = rowCount ∧ ∀ row ∈ rows, row.length = components

/-- The texts of the elements of an array. -/
def textsOf (a : DataArray) : List String := a.elements.texts .plain fun b => if b then "1" else "0"

theorem flatten_rows_ofArray (name : String) (center : Center) (a : DataArray) :
    (Attribute.ofArray name center a).rows.flatten = textsOf a :=
  flatten_rowsOf a.components_toNat_pos (Elements.length_texts ..).le

/-- **The rows of an array are as declared**: one for each tuple, with a value for each of its
components. The invariant of an array says that its values divide into tuples. -/
theorem fill_rows (name : String) (center : Center) (a : DataArray) :
    Fill (Attribute.ofArray name center a).rows a.tupleCount a.components.toNat := by
  have hsize : (textsOf a).length = a.size := Elements.length_texts ..
  exact rowsOf_of_length_eq a.components_toNat_pos hsize.le (hsize.trans a.size_eq)

/-! ## What lies beneath a geometry

The arrays that are shown are found through two lookups: the matrix under a registered
name, and the arrays among its children. Both are put as relations, so that what is listed
can be compared with what is in the store. -/

/-- **The arrays of a matrix** that is registered beneath a path, with their paths. Without a
registered matrix the list is empty. -/
structure ListsArrays (s : Store) (place : DataPath) (matrix : Option String)
    (arrays : List (DataPath × DataArray)) : Prop where
  /-- They are in order of their names, each of them once. -/
  increasing : (arrays.map fun entry => entry.1.name).Pairwise (· < ·)
  /-- They lie beneath the path with the registered name. -/
  mem_iff : ∀ path a, (path, a) ∈ arrays ↔ s.get? path = some (.array a)
    ∧ ∃ above, path.parent? = some above ∧ above.parent? = some place ∧ matrix = some above.name

/-- **The geometries of a store**, with their paths. All else in that list is passed over. -/
structure ListsGeometries (s : Store) (geometries : List (DataPath × Geometry)) : Prop where
  /-- They stand in the order of the list of all paths. -/
  sublist : (geometries.map Prod.fst).Sublist (s.list none)
  /-- No path is there twice. -/
  nodup : (geometries.map Prod.fst).Nodup
  /-- All of them are there. -/
  mem_iff : ∀ path g, (path, g) ∈ geometries ↔ s.get? path = some (.geometry g)

section Found

variable {α : Type} (find : DataPath → Option α) (paths : List DataPath)

/-- What is found at some paths, each with its path. -/
def found : List (DataPath × α) := paths.filterMap fun path => (find path).map fun a => (path, a)

theorem mem_found {path : DataPath} {a : α} :
    (path, a) ∈ found find paths ↔ path ∈ paths ∧ find path = some a := by
  rw [found, List.mem_filterMap]
  constructor
  · rintro ⟨other, hother, hfind⟩
    obtain ⟨b, hb, he⟩ := Option.map_eq_some_iff.1 hfind
    obtain ⟨rfl, rfl⟩ := Prod.mk.inj he
    exact ⟨hother, hb⟩
  · rintro ⟨hpath, hfind⟩
    exact ⟨path, hpath, by rw [hfind]; rfl⟩

/-- The paths at which something is found. -/
theorem map_fst_found :
    (found find paths).map Prod.fst = paths.filter fun path => (find path).isSome := by
  induction paths with
  | nil => rfl
  | cons path paths ih =>
    rw [found] at ih ⊢
    cases hfind : find path <;> simp [hfind, ih]

end Found

variable (s : Store)

/-- The array at a path. -/
def arrayAt? (path : DataPath) : Option DataArray :=
  match s.get? path with
  | some (.array a) => some a
  | _ => none

/-- The geometry at a path. -/
def geometryAt? (path : DataPath) : Option Geometry :=
  match s.get? path with
  | some (.geometry g) => some g
  | _ => none

theorem arrayAt?_eq_some_iff {path : DataPath} {a : DataArray} :
    arrayAt? s path = some a ↔ s.get? path = some (.array a) := by
  rw [arrayAt?]
  split <;> simp_all

theorem geometryAt?_eq_some_iff {path : DataPath} {g : Geometry} :
    geometryAt? s path = some g ↔ s.get? path = some (.geometry g) := by
  rw [geometryAt?]
  split <;> simp_all

/-- The arrays that are found for a registered name. -/
def arraysOf (place : DataPath) (matrix : Option String) : List (DataPath × DataArray) :=
  match matrix.bind fun name => (place.join name).toOption with
  | none => []
  | some matrix => found (arrayAt? s) ((s.children? matrix).getD [])

/-- The geometries that are found on the list of all paths. -/
def geometriesOf : List (DataPath × Geometry) := found (geometryAt? s) (s.list none)

theorem attributesOf_eq (place : DataPath) (center : Center) (matrix : Option String) :
    attributesOf s place center matrix
      = (arraysOf s place matrix).map fun entry => .ofArray entry.1.name center entry.2 := by
  rw [attributesOf, arraysOf]
  cases matrix.bind fun name => (place.join name).toOption with
  | none => rfl
  | some matrix =>
    dsimp only
    rw [found, List.map_filterMap]
    refine List.filterMap_congr fun path _ => ?_
    rw [arrayAt?]
    split <;> simp_all

theorem gridsOf_eq :
    gridsOf s = (geometriesOf s).map fun entry => .ofGeometry s entry.1 entry.2 := by
  rw [gridsOf, Store.contents, geometriesOf, found, List.map_filterMap, List.filterMap_filterMap]
  refine List.filterMap_congr fun path _ => ?_
  rw [geometryAt?]
  cases s.get? path with
  | none => rfl
  | some object => cases object <;> rfl

variable {s}

theorem listsGeometries (h : s.Coherent) : ListsGeometries s (geometriesOf s) where
  sublist := by
    rw [geometriesOf, map_fst_found]
    exact List.filter_sublist
  nodup := by
    rw [geometriesOf, map_fst_found]
    refine List.Nodup.filter _ (h.pairwise_list.imp fun hlater he => ?_)
    rw [he, DataPath.relative?_self] at hlater
    cases hlater
  mem_iff path g := by
    rw [geometriesOf, mem_found, geometryAt?_eq_some_iff, h.mem_list]
    exact and_iff_right_of_imp fun hg => Option.isSome_of_eq_some hg

/-- The path of a registered name. -/
theorem toOption_join_eq_some_iff {place matrix : DataPath} {name : String} :
    (place.join name).toOption = some matrix ↔ matrix.parent? = some place ∧ name = matrix.name := by
  have hjoin : (place.join name).toOption = some matrix ↔ place.join name = .ok matrix := by
    cases place.join name <;> simp [Except.toOption]
  rw [hjoin, DataPath.join_eq_ok_iff, DataPath.parent?_eq_some_iff]
  constructor
  · intro h
    have hname : [matrix.name] = [name] :=
      (List.append_inj' (matrix.segments_eq.symm.trans h) rfl).2
    obtain rfl := List.singleton_inj.1 hname
    exact ⟨h, rfl⟩
  · rintro ⟨h, rfl⟩
    exact h

/-- The path of a name that is registered beneath a place, if one is. -/
theorem bind_join_eq_some_iff {place above : DataPath} {matrix : Option String} :
    (matrix.bind fun name => (place.join name).toOption) = some above
      ↔ above.parent? = some place ∧ matrix = some above.name := by
  rw [Option.bind_eq_some_iff]
  simp only [toOption_join_eq_some_iff]
  constructor
  · rintro ⟨name, hname, hparent, rfl⟩
    exact ⟨hparent, hname⟩
  · rintro ⟨hparent, hname⟩
    exact ⟨_, hname, hparent, rfl⟩

/-- The objects beneath a path are listed in order of their names. -/
theorem listed_children (h : s.Sound) (above : DataPath) :
    (((s.children? above).getD []).map DataPath.name).Pairwise (· < ·)
      ∧ ∀ path, path ∈ (s.children? above).getD []
        ↔ path.parent? = some above ∧ (s.get? path).isSome := by
  cases hobject : s.get? above with
  | none =>
    rw [h.represents.noChildren above hobject]
    refine ⟨.nil, fun path => iff_of_false List.not_mem_nil ?_⟩
    rintro ⟨hbeneath, hsome⟩
    obtain ⟨object, hpath⟩ := Option.isSome_iff_exists.1 hsome
    obtain ⟨holder, hholder, -⟩ := h.placed path above _ hbeneath hpath
    rw [hholder] at hobject
    cases hobject
  | some object =>
    obtain ⟨paths, hpaths, hincreasing, hmem⟩ :=
      h.represents.children above (Option.isSome_of_eq_some hobject)
    rw [hpaths, Option.getD_some]
    exact ⟨hincreasing, hmem⟩

theorem listsArrays (h : s.Sound) (place : DataPath) (matrix : Option String) :
    ListsArrays s place matrix (arraysOf s place matrix) := by
  rw [arraysOf]
  cases hpath : matrix.bind fun name => (place.join name).toOption with
  | none =>
    refine ⟨.nil, fun path a => iff_of_false List.not_mem_nil ?_⟩
    rintro ⟨-, above, -, hregistered⟩
    rw [bind_join_eq_some_iff.2 hregistered] at hpath
    cases hpath
  | some above =>
    obtain ⟨hincreasing, hmem⟩ := listed_children h above
    obtain ⟨hparent, hname⟩ := bind_join_eq_some_iff.1 hpath
    refine ⟨?_, fun path a => ?_⟩
    · have hnames : (fun entry : DataPath × DataArray => entry.1.name) = DataPath.name ∘ Prod.fst :=
        rfl
      rw [hnames, ← List.map_map, map_fst_found]
      exact hincreasing.sublist (List.filter_sublist.map _)
    · rw [mem_found, arrayAt?_eq_some_iff, hmem]
      constructor
      · rintro ⟨⟨hbeneath, -⟩, ha⟩
        exact ⟨ha, above, hbeneath, hparent, hname⟩
      · rintro ⟨ha, other, hbeneath, hregistered⟩
        -- No other path has the registered name beneath the place.
        have hother := (bind_join_eq_some_iff.2 hregistered).symm.trans hpath
        obtain rfl := Option.some.inj hother
        exact ⟨⟨hbeneath, Option.isSome_of_eq_some ha⟩, ha⟩

/-! ## What is shown

An element shows something if it declares the right numbers and has the rows. The declared
numbers come from one place and the rows from another, and the placement rules bring them
together. -/

/-- **An element shows rows of values**: it declares how many there are and how long they are.
That it has so many rows is another matter, which is said where it is used. -/
structure ShowsRows (item : Element) (rowCount components : Nat) : Prop where
  /-- It is an item of data. -/
  name_eq : item.name = "DataItem"
  /-- It has no parts. -/
  children_eq : item.children = []
  /-- It declares as many rows, and as many values in each. -/
  dimensions : item.attributes.lookup "Dimensions" = some s!"{rowCount} {components}"

/-- **An element shows an array** that belongs to vertices or faces, of which there are `count`.
The values stand there as texts, in the order in which the array has them. -/
structure ShowsArray (center : Center) (count : Nat) (entry : DataPath × DataArray)
    (element : Element) : Prop where
  /-- It is an attribute. -/
  name_eq : element.name = "Attribute"
  /-- It has the name of the array. -/
  title : element.attributes.lookup "Name" = some (escape entry.1.name)
  /-- It says what the rows belong to. -/
  center : element.attributes.lookup "Center" = some center.text
  /-- It has the values of the array, and declares a row for each vertex or face, with a value for
  each component. The rows are as declared. -/
  rows : ∃ item, element.children = [item] ∧ ShowsRows item count entry.2.components.toNat
    ∧ Fill item.rows count entry.2.components.toNat ∧ item.rows.flatten = textsOf entry.2

/-- **An element shows a geometry** of a store, with the arrays of its two matrices. The names of
paths and arrays are escaped, so they are compared with what escaping makes of them. -/
structure ShowsGeometry (s : Store) (entry : DataPath × Geometry) (element : Element) : Prop where
  /-- It is a grid. -/
  name_eq : element.name = "Grid"
  /-- It has the path of the geometry. -/
  title : element.attributes.lookup "Name" = some (escape entry.1.text)
  /-- Its parts are the faces, the vertices and the arrays, those of the vertices first. -/
  parts : ∃ faceItem vertexItem nodes cells nodeArrays cellArrays,
    element.children
        = ⟨"Topology", [("TopologyType", "Triangle"),
            ("NumberOfElements", toString entry.2.faceCount)], [], [faceItem]⟩
          :: ⟨"Geometry", [("GeometryType", "XYZ")], [], [vertexItem]⟩ :: (nodes ++ cells)
      ∧ ShowsRows faceItem entry.2.faceCount 3 ∧ Fill faceItem.rows entry.2.faceCount 3
      ∧ ShowsRows vertexItem entry.2.vertexCount 3 ∧ Fill vertexItem.rows entry.2.vertexCount 3
      ∧ ListsArrays s entry.1 entry.2.vertexData nodeArrays
      ∧ List.Forall₂ (ShowsArray .node entry.2.vertexCount) nodeArrays nodes
      ∧ ListsArrays s entry.1 entry.2.faceData cellArrays
      ∧ List.Forall₂ (ShowsArray .cell entry.2.faceCount) cellArrays cells

theorem showsRows_dataElement (type : String) (precision rowCount components : Nat)
    (rows : List (List String)) :
    ShowsRows (dataElement type precision rowCount components rows) rowCount components :=
  ⟨rfl, rfl, rfl⟩

theorem showsArray_element (center : Center) (path : DataPath) (a : DataArray) :
    ShowsArray center a.tupleCount (path, a) (Attribute.ofArray path.name center a).element where
  name_eq := rfl
  title := rfl
  center := rfl
  rows := ⟨_, rfl, showsRows_dataElement .., fill_rows path.name center a,
    flatten_rows_ofArray path.name center a⟩

/-- **Arrays of a matrix** are shown with its number of tuples. That is the number which the
element declares for each of them. -/
theorem forall₂_showsArray {arrays : List (DataPath × DataArray)} {center : Center} {count : Nat}
    (hcount : ∀ path a, (path, a) ∈ arrays → a.tupleCount = count) :
    List.Forall₂ (ShowsArray center count) arrays
      (arrays.map fun entry => (Attribute.ofArray entry.1.name center entry.2).element) := by
  rw [List.forall₂_map_right_iff, List.forall₂_same]
  rintro ⟨path, a⟩ hmem
  exact hcount path a hmem ▸ showsArray_element center path a

/-- The faces and the vertices fill their rows. -/
theorem fill_map {α β : Type} (items : List α) (parts : α → List β) (write : β → String)
    {components : Nat} (hparts : ∀ item, (parts item).length = components) :
    Fill (items.map fun item => (parts item).map write) items.length components := by
  refine ⟨List.length_map _, List.forall_mem_map.2 fun item _ => ?_⟩
  rw [List.length_map, hparts]

/-- **The arrays of a registered matrix** have as many tuples as the geometry asks for. It is
where the invariants of a sound store come in: a registered matrix has a tuple for each vertex or
face. -/
theorem tupleCount_eq (h : s.Sound) {place : DataPath} {g : Geometry}
    (hg : s.get? place = some (.geometry g)) {matrix : Option String} {count : Nat}
    (hcount : ∀ name, matrix = some name → g.requiredTuples? name = some count)
    {arrays : List (DataPath × DataArray)} (harrays : ListsArrays s place matrix arrays) :
    ∀ path a, (path, a) ∈ arrays → a.tupleCount = count := by
  intro path a hmem
  obtain ⟨ha, above, hbeneath, hparent, hname⟩ := (harrays.mem_iff path a).1 hmem
  obtain ⟨holder, hholder, hrules⟩ := h.wellPlaced.path path above _ hbeneath ha
  obtain ⟨parent, hget, hplaced⟩ := h.wellPlaced.path above place _ hparent hholder
  obtain rfl := Option.some.inj (hget.symm.trans hg)
  obtain ⟨m, rfl, hm⟩ := hplaced.geometry g count rfl (hcount _ hname)
  obtain ⟨other, hother, hsize⟩ := hrules.matrix m rfl
  obtain rfl := DataObject.array.inj hother
  exact hsize.trans hm

/-- **A geometry is shown** by the element of its grid. One name for both matrices is excluded,
because then the matrix has the number of tuples of one of them only. -/
theorem showsGeometry (h : s.Sound) {place : DataPath} {g : Geometry}
    (hg : s.get? place = some (.geometry g))
    (honce : ∀ name, g.vertexData = some name → g.faceData ≠ some name) :
    ShowsGeometry s (place, g) (Grid.ofGeometry s place g).element := by
  have hnodes := listsArrays h place g.vertexData
  have hcells := listsArrays h place g.faceData
  -- The matrix registered for a role has a tuple for each vertex or each face, so its arrays do.
  have hvertexCount := tupleCount_eq h hg (fun _ => Geometry.requiredTuples?_vertexData) hnodes
  have hfaceCount := tupleCount_eq h hg (fun name hname => by
    rw [Geometry.requiredTuples?_faceData hname, if_neg fun hvertex => honce name hvertex hname])
    hcells
  have hchildren : (Grid.ofGeometry s place g).attributes.map Attribute.element
      = (arraysOf s place g.vertexData).map
          (fun entry => (Attribute.ofArray entry.1.name .node entry.2).element)
        ++ (arraysOf s place g.faceData).map
          (fun entry => (Attribute.ofArray entry.1.name .cell entry.2).element) := by
    rw [Grid.ofGeometry, attributesOf_eq, attributesOf_eq, List.map_append, List.map_map,
      List.map_map]
    rfl
  have hfaces : Fill (Grid.ofGeometry s place g).faces g.faceCount 3 :=
    fill_map g.faces Face.corners (fun i => toString i.toNat) fun _ => rfl
  have hvertices : Fill (Grid.ofGeometry s place g).vertices g.vertexCount 3 := by
    rw [Geometry.vertexCount, ← Array.length_toList]
    exact fill_map g.vertices.toList Point.coordinates (Single.write .plain) fun _ => rfl
  refine ⟨rfl, rfl, dataElement "Int" 8 g.faceCount 3 (Grid.ofGeometry s place g).faces,
    dataElement "Float" 4 g.vertexCount 3 (Grid.ofGeometry s place g).vertices, _, _, _, _, ?_,
    showsRows_dataElement .., hfaces, showsRows_dataElement .., hvertices, hnodes,
    forall₂_showsArray hvertexCount, hcells, forall₂_showsArray hfaceCount⟩
  rw [← hchildren, ← hfaces.1, ← hvertices.1]
  rfl

/-- Texts of the parts of items, where every item has a part. -/
theorem arePlain_map {α β : Type} {items : List α} {parts : α → List β} {write : β → String}
    (hparts : ∀ item, parts item ≠ []) (hwrite : ∀ part, IsPlain (write part)) :
    ArePlain (items.map fun item => (parts item).map write) := by
  refine List.forall_mem_map.2 fun item _ => ⟨mt List.map_eq_nil_iff.1 (hparts item), ?_⟩
  exact List.forall_mem_map.2 fun part _ => hwrite part

theorem arePlain_rows_ofArray (name : String) (center : Center) (a : DataArray) :
    ArePlain (Attribute.ofArray name center a).rows := by
  have htruth : ∀ b : Bool, IsWord (if b then "1" else "0") := fun b => by
    cases b <;> exact isWord_of_all (by decide) (by decide)
  have htexts : ∀ text ∈ textsOf a, IsWord text :=
    Elements.isWord_texts_of rfl (by decide) htruth a.elements
  refine fun row hrow => ⟨rowsOf_ne_nil a.components_toNat_pos row hrow, fun word hword => ?_⟩
  refine isPlain_of_isWord (htexts word ?_)
  rw [← flatten_rows_ofArray name center a]
  exact List.mem_flatten_of_mem hrow hword

/-- **The rows of a grid have words**, which are numbers. None of these words has a character of
the markup. -/
theorem isLegible_ofGeometry (s : Store) (place : DataPath) (g : Geometry) :
    (Grid.ofGeometry s place g).IsLegible where
  faces := arePlain_map (fun _ => List.cons_ne_nil _ _) fun i => isPlain_nat i.toNat
  vertices := arePlain_map (fun _ => List.cons_ne_nil _ _) fun x =>
    isPlain_of_isWord (FloatLayout.isWord_write rfl (by decide) (by decide) x.toNat)
  attributes := by
    rw [Grid.ofGeometry, attributesOf_eq, attributesOf_eq, List.forall_mem_append,
      List.forall_mem_map, List.forall_mem_map]
    exact ⟨fun _ _ => arePlain_rows_ofArray _ _ _, fun _ _ => arePlain_rows_ofArray _ _ _⟩

/-- **A descriptor shows the geometries of a store** in order, each with the arrays of its two
matrices, if no geometry has registered one name for both. All numbers of rows are as declared,
and all rows are as long. -/
theorem render_shows (operations : List Operation)
    (honce : ∀ path g name, (Store.after operations).get? path = some (.geometry g) →
      g.vertexData = some name → g.faceData ≠ some name) :
    let s := Store.after operations
    ∃ geometries grids, read (render s) = some [root grids] ∧ ListsGeometries s geometries
      ∧ List.Forall₂ (ShowsGeometry s) geometries grids := by
  intro s
  have hs : s.Sound := Store.sound_after operations
  have hlists := listsGeometries hs.coherent
  refine ⟨geometriesOf s, (gridsOf s).map Grid.element, read_document ?_, hlists, ?_⟩
  · rw [gridsOf_eq, List.forall_mem_map]
    exact fun entry _ => isLegible_ofGeometry s entry.1 entry.2
  · rw [gridsOf_eq, List.map_map, List.forall₂_map_right_iff, List.forall₂_same]
    rintro ⟨path, g⟩ hmem
    have hg := (hlists.mem_iff path g).1 hmem
    exact showsGeometry hs hg fun name => honce path g name hg

/-- A triangle has a matrix for its vertices, and in it an array with two components. The array is
shown as it should be, in three rows of two values. -/
theorem render_shows_triangle :
    let g : Geometry := ⟨#[.origin, .origin, .origin], [⟨0, 1, 2⟩], by decide, some "V", none⟩
    let a : DataArray := ⟨.uint8 [1, 2, 3, 4, 5, 6], 2, by decide, by decide⟩
    let place := DataPath.single "G" (by decide)
    let matrix := place.push "V" (by decide)
    let path := matrix.push "A" (by decide)
    let s := Store.after [.create place (.geometry g) false,
      .create matrix (.attributeMatrix ⟨3⟩) false, .create path (.array a) false]
    (∀ q other name, s.get? q = some (.geometry other) →
        other.vertexData = some name → other.faceData ≠ some name)
      ∧ ∃ grids, read (render s) = some [root grids] ∧ ∃ grid ∈ grids, ∃ element ∈ grid.children,
        ∃ item, element.children = [item] ∧ ShowsRows item 3 2 ∧ Fill item.rows 3 2
          ∧ item.rows.flatten = ["1", "2", "3", "4", "5", "6"] := by
  intro g a place matrix path s
  have hs : s.Sound := Store.sound_after _
  -- The store is computed once; what it holds is read off from there.
  have hcontents : s.contents
      = [(place, .geometry g), (matrix, .attributeMatrix ⟨3⟩), (path, .array a)] := by
    decide +kernel
  have hget : ∀ q object, s.get? q = some object ↔ (q, object) ∈ s.contents := fun q object =>
    hs.coherent.mem_contents.symm
  rw [hcontents] at hget
  have honce : ∀ q other name, s.get? q = some (.geometry other) →
      other.vertexData = some name → other.faceData ≠ some name := by
    intro q other name hother _
    have hmem := (hget q _).1 hother
    simp only [List.mem_cons, Prod.mk.injEq, DataObject.geometry.injEq, reduceCtorEq, and_false,
      List.not_mem_nil, or_false] at hmem
    rw [hmem.2]
    exact nofun
  obtain ⟨geometries, grids, hread, hlists, hshows⟩ := render_shows _ honce
  have hgeometry : (place, g) ∈ geometries := (hlists.mem_iff place g).2 ((hget _ _).2 (by simp))
  obtain ⟨grid, hgrid, hshown⟩ := Store.exists_of_forall₂ hshows hgeometry
  obtain ⟨_, _, nodes, cells, nodeArrays, _, hchildren, -, -, -, -, harrays, hnodes, -⟩ := hshown.parts
  have harray : (path, a) ∈ nodeArrays :=
    (harrays.mem_iff path a).2 ⟨(hget _ _).2 (by simp), matrix, by decide, by decide, by decide⟩
  obtain ⟨element, helement, hshown⟩ := Store.exists_of_forall₂ hnodes harray
  obtain ⟨item, hitem, hrows, hfill, hvalues⟩ := hshown.rows
  refine ⟨honce, grids, hread, grid, hgrid, element, ?_, item, hitem, hrows, hfill,
    hvalues.trans (by decide)⟩
  rw [hchildren]
  simp [helement]

end Meshwork.Xdmf
