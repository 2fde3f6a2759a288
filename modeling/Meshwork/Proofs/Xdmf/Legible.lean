import Meshwork.Proofs.Container.RoundTrip
import Meshwork.Proofs.Xdmf.Consistent

/-!
# The names in a descriptor

Names are the one part of a descriptor that a user chooses: the paths of geometries and the
names of arrays, any texts without separators. A value of a `Name` attribute has no character
of the markup, and resolving its references gives the name (`Xdmf.Spells`).

What is not a character of the markup stands for itself, whether a document may have it or not.
So the characters of a descriptor are those that a document may have exactly if those of its
names are (`Xdmf.render_legible`). A name may have others, such as control characters, and then
the descriptor has them as well (`Xdmf.not_legible_control`).
-/

namespace Meshwork.Xdmf

open Markup

/-! ## References

Five characters are written as references. Resolving reads up to a semicolon and looks the
name up; anything else that follows an ampersand is no value. -/

/-- The references that every document knows. -/
def predefined : List (List Char × Char) :=
  [("amp".toList, '&'), ("lt".toList, '<'), ("gt".toList, '>'), ("quot".toList, '"'),
    ("apos".toList, '\'')]

/-- Reads a value with references in it. `reference` holds the name of one that has begun,
backwards. -/
def resolveFrom (reference : Option (List Char)) : List Char → Option (List Char)
  | [] =>
    match reference with
    | none => some []
    | some _ => none
  | c :: rest =>
    match reference with
    | none => if c = '&' then resolveFrom (some []) rest else (resolveFrom none rest).map (c :: ·)
    | some name =>
      if c = ';' then do
        let meant ← predefined.lookup name.reverse
        (resolveFrom none rest).map (meant :: ·)
      else resolveFrom (some (c :: name)) rest

/-- **What a value means**, if an ampersand stands in it only where a known reference begins. This
is what a reader of the document makes of the value of an attribute. -/
def resolve (value : String) : Option String := (resolveFrom none value.toList).map String.ofList

theorem resolveFrom_escapeChar (c : Char) (rest : List Char) :
    resolveFrom none (escapeChar c ++ rest) = (resolveFrom none rest).map (c :: ·) := by
  unfold escapeChar
  split_ifs with hamp hless hgreater hquote happos
  · rw [hamp]
    rfl
  · rw [hless]
    rfl
  · rw [hgreater]
    rfl
  · rw [hquote]
    rfl
  · rw [happos]
    rfl
  · rw [List.singleton_append, resolveFrom]
    exact if_neg hamp

/-- **What has been escaped is found again**, whatever it looks like. So different names are shown
by different values. -/
theorem resolve_escape (text : String) : resolve (escape text) = some text := by
  have hchars : ∀ chars : List Char, resolveFrom none (chars.flatMap escapeChar) = some chars := by
    intro chars
    induction chars with
    | nil => rfl
    | cons c chars ih => rw [List.flatMap_cons, resolveFrom_escapeChar, ih, Option.map_some]
  rw [resolve, escape, String.toList_ofList, hchars, Option.map_some, String.ofList_toList]

/-- **A value spells a name**: it has no bracket, no quotation mark and no ampersand but that of
a reference, and it means the name. -/
structure Spells (value name : String) : Prop where
  /-- No tag begins within it. -/
  bracket : '<' ∉ value.toList
  /-- It does not end early. -/
  quote : '"' ∉ value.toList
  /-- Its references make the name. -/
  resolve_eq : resolve value = some name

theorem spells_escape (text : String) : Spells (escape text) text where
  bracket h := isValue_escape text _ h (by decide)
  quote h := isValue_escape text _ h (by decide)
  resolve_eq := resolve_escape text

/-! ## Titles

The values of one attribute are gathered from an element and all those within, in the
order of the document. -/

mutual

/-- The values of all attributes of a name, in an element and in those within it. -/
def valuesOf (key : String) : Element → List String
  | ⟨_, attributes, _, children⟩ =>
    (attributes.filter fun entry => entry.1 = key).map Prod.snd ++ valuesOfAll key children

/-- The values of all attributes of a name, in some elements. -/
def valuesOfAll (key : String) : List Element → List String
  | [] => []
  | element :: elements => valuesOf key element ++ valuesOfAll key elements

end

theorem valuesOfAll_append (key : String) (elements others : List Element) :
    valuesOfAll key (elements ++ others) = valuesOfAll key elements ++ valuesOfAll key others := by
  induction elements with
  | nil => rfl
  | cons element elements ih =>
    rw [List.cons_append, valuesOfAll, ih, valuesOfAll, List.append_assoc]

/-- The values in elements of one kind. -/
theorem valuesOfAll_map {α : Type} {key : String} {element : α → Element} {values : α → List String}
    (h : ∀ item, valuesOf key (element item) = values item) (items : List α) :
    valuesOfAll key (items.map element) = items.flatMap values := by
  induction items with
  | nil => rfl
  | cons item items ih => rw [List.map_cons, valuesOfAll, ih, h, List.flatMap_cons]

/-- The names that a grid has. -/
def Grid.names (g : Grid) : List String := g.name :: g.attributes.map Attribute.name

theorem valuesOf_attribute (a : Attribute) : valuesOf "Name" a.element = [escape a.name] := rfl

theorem valuesOf_grid (g : Grid) : valuesOf "Name" g.element = g.names.map escape := by
  have hattributes := valuesOfAll_map valuesOf_attribute g.attributes
  rw [← List.map_eq_flatMap] at hattributes
  have hparts : ∀ topology geometry : Element, valuesOf "Name" topology = [] →
      valuesOf "Name" geometry = [] →
      valuesOfAll "Name" ([topology, geometry] ++ g.attributes.map Attribute.element)
        = g.attributes.map fun a => escape a.name := by
    intro topology geometry htopology hgeometry
    rw [valuesOfAll_append, hattributes, valuesOfAll, valuesOfAll, htopology, hgeometry]
    rfl
  rw [Grid.names, List.map_cons, List.map_map, Grid.element, valuesOf, hparts _ _ rfl rfl]
  rfl

theorem valuesOf_root (grids : List Grid) :
    valuesOfAll "Name" [root (grids.map Grid.element)] = (grids.flatMap Grid.names).map escape := by
  have hgrids := valuesOfAll_map valuesOf_grid grids
  rw [← List.map_flatMap] at hgrids
  simp [root, valuesOfAll, valuesOf, hgrids]

/-! ## Characters

A document excludes most control characters, and there is no way to write them by a
reference either. So a name that has one cannot be put right by escaping. -/

/-- **A document may have the character**: it is a tab, a line feed or a carriage return, or none of
the control characters below the space, no surrogate, and not the last one or the last but one
below the supplementary characters. -/
def IsXmlChar (c : Char) : Prop :=
  c = '\t' ∨ c = '\n' ∨ c = '\r' ∨ 0x20 ≤ c.toNat ∧ c.toNat ≤ 0xD7FF
    ∨ 0xE000 ≤ c.toNat ∧ c.toNat ≤ 0xFFFD ∨ 0x10000 ≤ c.toNat ∧ c.toNat ≤ 0x10FFFF

instance (c : Char) : Decidable (IsXmlChar c) := inferInstanceAs (Decidable (_ ∨ _))

/-- **A document may have all characters of a text.** Of the characters below the space, only
three kinds of white space are among those. -/
def Legible (text : String) : Prop := ∀ c ∈ text.toList, IsXmlChar c

instance (text : String) : Decidable (Legible text) :=
  List.decidableBAll _ text.toList

theorem legible_append {text other : String} :
    Legible (text ++ other) ↔ Legible text ∧ Legible other := by
  rw [Legible, String.toList_append, List.forall_mem_append]
  rfl

/-- **Escaping keeps the characters** that a document may not have, and adds none. References
consist of characters that every document may have. -/
theorem legible_escape {text : String} : Legible (escape text) ↔ Legible text := by
  -- The five characters that are escaped are legible, and so is what stands for them.
  have hchar : ∀ c, (∀ d ∈ escapeChar c, IsXmlChar d) ↔ IsXmlChar c := by
    intro c
    unfold escapeChar
    split_ifs with hamp hless hgreater hquote happos
    · rw [hamp]
      exact iff_of_true (by decide : Legible "&amp;") (by decide)
    · rw [hless]
      exact iff_of_true (by decide : Legible "&lt;") (by decide)
    · rw [hgreater]
      exact iff_of_true (by decide : Legible "&gt;") (by decide)
    · rw [hquote]
      exact iff_of_true (by decide : Legible "&quot;") (by decide)
    · rw [happos]
      exact iff_of_true (by decide : Legible "&apos;") (by decide)
    · exact List.forall_mem_singleton
  rw [Legible, escape, String.toList_ofList, List.forall_mem_flatMap]
  exact forall₂_congr fun c _ => hchar c

theorem legible_of_isPlain {word : String} (h : IsPlain word) : Legible word := by
  have hplain : ∀ n < 128, isPlainChar (Char.ofNat n) = true → IsXmlChar (Char.ofNat n) := by decide
  intro c hc
  have hchar := hplain c.toNat (toNat_lt_of_isPlainChar (h.chars c hc))
  rw [Char.ofNat_toNat] at hchar
  exact hchar (h.chars c hc)

theorem legible_nat (n : Nat) : Legible (toString n) := legible_of_isPlain (isPlain_nat n)

/-- Rows of plain words have no other characters. -/
theorem legible_row {row : List String} (h : ∀ word ∈ row, IsPlain word) :
    Legible (" ".intercalate row) :=
  forall_mem_intercalate (by decide) fun word hword => legible_of_isPlain (h word hword)

theorem legible_dataItem (type : String) (htype : IsPlain type)
    (precision rowCount components : Nat) {rows : List (List String)} (hrows : ArePlain rows) :
    ∀ line ∈ dataItem type precision rowCount components rows, Legible line := by
  have hfirst : Legible ("        <DataItem Format=\"XML\" "
      ++ s!"NumberType=\"{type}\" Precision=\"{precision}\" Dimensions=\"{rowCount} {components}\">") := by
    simp only [legible_append, toString_text, legible_nat, legible_of_isPlain htype, and_true]
    decide
  rw [dataItem, List.forall_mem_append, List.forall_mem_append, List.forall_mem_singleton,
    List.forall_mem_singleton, List.forall_mem_map]
  exact ⟨⟨hfirst, fun row hrow => legible_append.2 ⟨by decide, legible_row (hrows row hrow).2⟩⟩,
    by decide⟩

/-- The characters of an attribute are those of its name, and others that a document may have. -/
theorem legible_attribute {a : Attribute} (h : ArePlain a.rows) :
    (∀ line ∈ a.lines, Legible line) ↔ Legible a.name := by
  have hitem := legible_dataItem _ (isPlain_numberType a.type) a.type.size a.rowCount a.components h
  have hfirst : Legible (let name := escape a.name
      let type := attributeType a.components
      s!"      <Attribute Name=\"{name}\" AttributeType=\"{type}\" Center=\"{a.center.text}\">")
      ↔ Legible a.name := by
    have htype := legible_of_isPlain (isPlain_attributeType a.components)
    have hcenter := legible_of_isPlain (isPlain_center a.center)
    simp only [legible_append, toString_text, legible_escape, htype, hcenter, and_true]
    refine ⟨fun h => h.1.1.1.2, fun h => ⟨⟨⟨⟨by decide, h⟩, by decide⟩, by decide⟩, by decide⟩⟩
  rw [Attribute.lines, List.forall_mem_append, List.forall_mem_append, List.forall_mem_singleton,
    List.forall_mem_singleton, hfirst]
  exact ⟨fun h => h.1.1, fun h => ⟨⟨h, hitem⟩, by decide⟩⟩

/-- The characters of a grid are those of its names, and others that a document may have. -/
theorem legible_grid {g : Grid} (h : g.IsLegible) :
    (∀ line ∈ g.lines, Legible line) ↔ ∀ name ∈ g.names, Legible name := by
  have hfaces := legible_dataItem "Int" (by decide) 8 g.faces.length 3 h.faces
  have hvertices := legible_dataItem "Float" (by decide) 4 g.vertices.length 3 h.vertices
  have hattributes : (∀ line ∈ g.attributes.flatMap Attribute.lines, Legible line)
      ↔ ∀ a ∈ g.attributes, Legible a.name := by
    rw [List.forall_mem_flatMap]
    exact forall₂_congr fun a ha => legible_attribute (h.attributes a ha)
  have hfirst : Legible (let name := escape g.name
      s!"    <Grid Name=\"{name}\" GridType=\"Uniform\">") ↔ Legible g.name := by
    simp only [legible_append, toString_text, legible_escape]
    exact ⟨fun h => h.1.2, fun h => ⟨⟨by decide, h⟩, by decide⟩⟩
  have htopology : Legible
      s!"      <Topology TopologyType=\"Triangle\" NumberOfElements=\"{g.faces.length}\">" := by
    simp only [legible_append, toString_text, legible_nat, and_true]
    decide
  -- The fixed parts of the lines are legible, and so are the numbers in them.
  have htags : Legible "      </Topology>" ∧ Legible "      <Geometry GeometryType=\"XYZ\">"
      ∧ Legible "      </Geometry>" ∧ Legible "    </Grid>" := by decide
  rw [Grid.lines, Grid.names]
  simp only [List.forall_mem_append, List.forall_mem_cons, List.forall_mem_map, hfirst, hattributes,
    iff_true_intro htopology, iff_true_intro hfaces, iff_true_intro hvertices, htags,
    and_true, List.not_mem_nil, false_implies, implies_true]

theorem legible_document {grids : List Grid} (h : ∀ g ∈ grids, g.IsLegible) :
    Legible (document grids) ↔ ∀ name ∈ grids.flatMap Grid.names, Legible name := by
  have hlines : Legible (document grids)
      ↔ ∀ line ∈ header ++ grids.flatMap Grid.lines ++ footer, Legible line := by
    rw [Legible, document, String.toList_join, List.forall_mem_flatMap, List.forall_mem_map]
    refine forall₂_congr fun line _ => ?_
    exact legible_append.trans (and_iff_left (by decide))
  have hfixed : (∀ line ∈ header, Legible line) ∧ ∀ line ∈ footer, Legible line := by decide
  rw [hlines, List.forall_mem_append, List.forall_mem_append, List.forall_mem_flatMap,
    List.forall_mem_flatMap]
  have hgrids := forall₂_congr fun g hg => legible_grid (h g hg)
  exact ⟨fun hall => hgrids.1 hall.1.2, fun hall => ⟨⟨hfixed.1, hgrids.2 hall⟩, hfixed.2⟩⟩

/-! ## Stores

The names that are shown are gathered from the store by a relation, and the characters of
everything else are known. -/

/-- **The names of geometries and of the arrays beneath them**: of each geometry its path, and
the names of the arrays in its two matrices. -/
def namesOf (geometries : List (DataPath × Geometry))
    (arrays : DataPath → Option String → List (DataPath × DataArray)) : List String :=
  geometries.flatMap fun entry =>
    entry.1.text :: (arrays entry.1 entry.2.vertexData
      ++ arrays entry.1 entry.2.faceData).map fun array => array.1.name

theorem names_gridsOf (s : Store) :
    (gridsOf s).flatMap Grid.names = namesOf (geometriesOf s) (arraysOf s) := by
  rw [gridsOf_eq, List.flatMap_map, namesOf]
  refine List.flatMap_congr fun entry _ => ?_
  have hnames : ∀ center matrix, (attributesOf s entry.1 center matrix).map Attribute.name
      = (arraysOf s entry.1 matrix).map fun array => array.1.name := by
    intro center matrix
    rw [attributesOf_eq, List.map_map]
    rfl
  simp only [Grid.names, Grid.ofGeometry, List.map_append, hnames]

/-- **A name is shown** if it is the path of a geometry, or if an array has it that lies in a
matrix which a geometry registers. -/
def IsShown (s : Store) (name : String) : Prop :=
  ∃ path g, s.get? path = some (.geometry g) ∧ (name = path.text
    ∨ ∃ child a above, s.get? child = some (.array a) ∧ child.parent? = some above
      ∧ above.parent? = some path ∧ (g.vertexData = some above.name ∨ g.faceData = some above.name)
      ∧ name = child.name)

/-- **The names listed are those shown**: the paths of geometries and the names of the arrays that
belong to one of them. They are all the texts in a document that a user chooses. -/
theorem mem_namesOf {s : Store} {geometries : List (DataPath × Geometry)}
    {arrays : DataPath → Option String → List (DataPath × DataArray)}
    (hgeometries : ListsGeometries s geometries)
    (harrays : ∀ place matrix, ListsArrays s place matrix (arrays place matrix)) {name : String} :
    name ∈ namesOf geometries arrays ↔ IsShown s name := by
  rw [namesOf, List.mem_flatMap]
  simp only [List.mem_cons, List.mem_map, List.mem_append]
  constructor
  · rintro ⟨⟨path, g⟩, hentry, rfl | ⟨⟨child, a⟩, harray | harray, rfl⟩⟩
    · exact ⟨path, g, (hgeometries.mem_iff path g).1 hentry, .inl rfl⟩
    · obtain ⟨ha, above, hchild, habove, hname⟩ := ((harrays _ _).mem_iff child a).1 harray
      exact ⟨path, g, (hgeometries.mem_iff path g).1 hentry,
        .inr ⟨child, a, above, ha, hchild, habove, .inl hname, rfl⟩⟩
    · obtain ⟨ha, above, hchild, habove, hname⟩ := ((harrays _ _).mem_iff child a).1 harray
      exact ⟨path, g, (hgeometries.mem_iff path g).1 hentry,
        .inr ⟨child, a, above, ha, hchild, habove, .inr hname, rfl⟩⟩
  · rintro ⟨path, g, hg, rfl | ⟨child, a, above, ha, hchild, habove, hname, rfl⟩⟩
    · exact ⟨(path, g), (hgeometries.mem_iff path g).2 hg, .inl rfl⟩
    · refine ⟨(path, g), (hgeometries.mem_iff path g).2 hg, .inr ⟨(child, a), ?_, rfl⟩⟩
      have hlisted : ∀ matrix, matrix = some above.name → (child, a) ∈ arrays path matrix :=
        fun matrix hmatrix => ((harrays path matrix).mem_iff child a).2
          ⟨ha, above, hchild, habove, hmatrix⟩
      exact hname.imp (hlisted _) (hlisted _)

/-- **A descriptor can be read, and its names are those of the store.** The values of its `Name`
attributes spell the paths of the geometries and the names of their arrays, one by one. A document
may have all characters of the descriptor exactly if it may have those of these names. -/
theorem render_legible (operations : List Operation) :
    let s := Store.after operations
    (∃ elements geometries arrays, read (render s) = some elements ∧ ListsGeometries s geometries
        ∧ (∀ place matrix, ListsArrays s place matrix (arrays place matrix))
        ∧ List.Forall₂ Spells (valuesOfAll "Name" elements) (namesOf geometries arrays))
      ∧ (Legible (render s) ↔ ∀ name, IsShown s name → Legible name) := by
  intro s
  have hs : s.Sound := Store.sound_after operations
  have hgeometries := listsGeometries hs.coherent
  have harrays := listsArrays hs
  have hgrids : ∀ g ∈ gridsOf s, g.IsLegible := by
    rw [gridsOf_eq, List.forall_mem_map]
    exact fun entry _ => isLegible_ofGeometry s entry.1 entry.2
  -- Reading does not look at the characters, so both halves hold of every store.
  refine ⟨⟨_, _, _, read_document hgrids, hgeometries, harrays, ?_⟩, ?_⟩
  · rw [valuesOf_root, names_gridsOf, List.forall₂_map_left_iff, List.forall₂_same]
    exact fun name _ => spells_escape name
  · rw [render, legible_document hgrids, names_gridsOf]
    exact forall_congr' fun name => imp_congr_left (mem_namesOf hgeometries harrays)

/-- A geometry may be called so that its descriptor is no document. -/
theorem not_legible_control :
    let g : Geometry := ⟨#[], [], nofun, none, none⟩
    let path := DataPath.single "A\x01" (by decide)
    ¬ Legible (render (Store.after [.create path (.geometry g) false])) := by
  intro g path hlegible
  have hget : (Store.after [.create path (.geometry g) false]).get? path = some (.geometry g) :=
    Store.get?_after_create (by decide) (.geometry g)
  have hshown : IsShown (Store.after [.create path (.geometry g) false]) path.text :=
    ⟨path, g, hget, .inl rfl⟩
  exact absurd ((render_legible _).2.1 hlegible _ hshown) (by decide)

end Meshwork.Xdmf
