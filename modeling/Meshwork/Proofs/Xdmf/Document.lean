import Meshwork.Proofs.DataObject
import Meshwork.Proofs.Xdmf.Markup
import Meshwork.Xdmf.Document

/-!
# The elements of a descriptor

A descriptor is read as one element for the whole with one element for its grids in it
(`Xdmf.read_document`). `Grid.element` says which element a grid is, down to the words of each
row. Rows need words for that, and words need plain characters: the texts of numbers are of
this kind (`Xdmf.isPlain_of_isWord`). Names may be any texts, since they are escaped
(`Xdmf.isValue_escape`).
-/

namespace Meshwork.Xdmf

open Markup

/-! ## Words and values

Two kinds of text stand in a document: words in rows and values in quotation marks.
Neither may contain what the reader takes for markup. -/

/-- The texts of numbers are plain words. -/
theorem isPlain_of_isWord {text : String} (h : IsWord text) : IsPlain text := by
  refine ⟨h.ne_nil, fun c hc => ?_⟩
  have hchar := h.chars c hc
  simp only [isWordChar, isPlainChar, Bool.or_eq_true] at hchar ⊢
  rcases hchar with (hchar | hchar) | hchar
  · exact .inl (.inl (.inl hchar))
  · exact .inl (.inr hchar)
  · exact .inr hchar

theorem isPlain_nat (n : Nat) : IsPlain (toString n) := isPlain_of_isWord (isWord_nat n)

/-- Rows that may be read again: they have words, and the words are plain. -/
def ArePlain (rows : List (List String)) : Prop :=
  ∀ row ∈ rows, row ≠ [] ∧ ∀ word ∈ row, IsPlain word

theorem isValue_of_isPlain {text : String} (h : IsPlain text) : IsValue text := fun c hc hmem => by
  have hnot := (of_isPlainChar (h.chars c hc)).2
  simp only [List.mem_cons, List.not_mem_nil, or_false, not_or] at hmem hnot
  rcases hmem with rfl | rfl | rfl <;> simp at hnot

theorem isValue_nat (n : Nat) : IsValue (toString n) := isValue_of_isPlain (isPlain_nat n)

theorem isValue_append {text other : String} (h : IsValue text) (h' : IsValue other) :
    IsValue (text ++ other) := by
  rw [IsValue, String.toList_append, List.forall_mem_append]
  exact ⟨h, h'⟩

/-- A text stands for itself among the parts of a longer one. -/
theorem toString_text (text : String) : toString text = text := rfl

/-- What stands for a character is none of the markup. -/
theorem isValue_escapeChar (c : Char) : ∀ d ∈ escapeChar c, d ∉ ['"', '<', '>'] := by
  unfold escapeChar
  split_ifs with hamp hless hgreater hquote happos
  · exact (by decide : IsValue "&amp;")
  · exact (by decide : IsValue "&lt;")
  · exact (by decide : IsValue "&gt;")
  · exact (by decide : IsValue "&quot;")
  · exact (by decide : IsValue "&apos;")
  · simp [hless, hgreater, hquote]

/-- **What is escaped is a value**, whatever the text. The characters that would end a value or
begin a tag are the ones that are replaced. -/
theorem isValue_escape (text : String) : IsValue (escape text) := by
  intro d hd
  rw [escape, String.toList_ofList, List.mem_flatMap] at hd
  obtain ⟨c, -, hc⟩ := hd
  exact isValue_escapeChar c d hc

/-! ## Elements

The lines of a descriptor are built from the outside in, and each block of lines is one
element. The lemmas follow the functions that write. -/

/-- **The element of rows of values.** It declares the type of the values, their size and the two
dimensions. -/
def dataElement (type : String) (precision rowCount components : Nat) (rows : List (List String)) :
    Element where
  name := "DataItem"
  attributes := [("Format", "XML"), ("NumberType", type), ("Precision", toString precision),
    ("Dimensions", s!"{rowCount} {components}")]
  rows := rows
  children := []

/-- **The element of an attribute.** Its one part is the item with the values of the array. -/
def Attribute.element (a : Attribute) : Element where
  name := "Attribute"
  attributes := [("Name", escape a.name), ("AttributeType", attributeType a.components),
    ("Center", a.center.text)]
  rows := []
  children := [dataElement (numberType a.type) a.type.size a.rowCount a.components a.rows]

/-- **The element of a grid.** Faces come first, then the vertices, and then what belongs to
either. -/
def Grid.element (g : Grid) : Element where
  name := "Grid"
  attributes := [("Name", escape g.name), ("GridType", "Uniform")]
  rows := []
  children :=
    [⟨"Topology", [("TopologyType", "Triangle"), ("NumberOfElements", toString g.faces.length)], [],
        [dataElement "Int" 8 g.faces.length 3 g.faces]⟩,
      ⟨"Geometry", [("GeometryType", "XYZ")], [],
        [dataElement "Float" 4 g.vertices.length 3 g.vertices]⟩]
      ++ g.attributes.map Attribute.element

/-- **The element of a descriptor.** There is one domain, also if there are no grids. -/
def root (grids : List Element) : Element where
  name := "Xdmf"
  attributes := [("xmlns:xi", "http://www.w3.org/2003/XInclude"), ("Version", "2.2")]
  rows := []
  children := [⟨"Domain", [], [], grids⟩]

/-- **The values of an item** are written between its tags, one row a line. Plain values have no
bracket, so the lines between the tags are read as rows. -/
theorem writes_dataItem (type : String) (htype : IsPlain type)
    (precision rowCount components : Nat) {rows : List (List String)} (hrows : ArePlain rows) :
    Writes (dataItem type precision rowCount components rows)
      [dataElement type precision rowCount components rows] := by
  have hentries : ∀ entry ∈ (dataElement type precision rowCount components rows).attributes,
      IsPlain entry.1 ∧ IsValue entry.2 := by
    have hdimensions : IsValue s!"{rowCount} {components}" :=
      isValue_append (isValue_append (isValue_nat rowCount) (by decide)) (isValue_nat components)
    simp only [dataElement, List.forall_mem_cons]
    exact ⟨⟨by decide, by decide⟩, ⟨by decide, isValue_of_isPlain htype⟩, ⟨by decide, isValue_nat _⟩,
      ⟨by decide, hdimensions⟩, List.forall_mem_nil _⟩
  have hfirst : IsTag ("        <DataItem Format=\"XML\" "
      ++ s!"NumberType=\"{type}\" Precision=\"{precision}\" Dimensions=\"{rowCount} {components}\">")
      (tagText "DataItem" (dataElement type precision rowCount components rows).attributes) :=
    ⟨8, by simp [tagText, dataElement, toString_text]⟩
  have hlast : IsTag "        </DataItem>" ('/' :: "DataItem".toList) := ⟨8, by decide⟩
  have hmargin : "          ".toList = List.replicate 10 ' ' := by decide
  have hwrites := writes_element (by decide) hentries hfirst hlast _
    (fun c hc => List.eq_of_mem_replicate (hmargin ▸ hc)) rows hrows writes_nil
  rw [List.nil_append] at hwrites
  exact hwrites

/-- Every type of values has a plain name. -/
theorem isPlain_numberType (type : ElementType) : IsPlain (numberType type) := by
  cases type <;> decide

theorem isPlain_attributeType (components : Nat) : IsPlain (attributeType components) := by
  unfold attributeType
  split_ifs <;> decide

theorem isPlain_center (center : Center) : IsPlain center.text := by cases center <;> decide

/-- **An attribute is written as its element.** Its name is escaped and may be any text. -/
theorem Attribute.writes {a : Attribute} (h : ArePlain a.rows) : Writes a.lines [a.element] := by
  have hentries : ∀ entry ∈ a.element.attributes, IsPlain entry.1 ∧ IsValue entry.2 := by
    simp only [element, List.forall_mem_cons]
    exact ⟨⟨by decide, isValue_escape _⟩, ⟨by decide, isValue_of_isPlain (isPlain_attributeType _)⟩,
      ⟨by decide, isValue_of_isPlain (isPlain_center _)⟩, List.forall_mem_nil _⟩
  have hlast : IsTag "      </Attribute>" ('/' :: "Attribute".toList) := ⟨6, by decide⟩
  have hinner := writes_dataItem _ (isPlain_numberType a.type) a.type.size a.rowCount a.components h
  rw [lines, List.append_assoc, List.singleton_append]
  refine writes_parent (by decide) hentries ⟨6, ?_⟩ hlast hinner
  simp [tagText, element, toString_text]

/-- **A grid may be read again** if all of its rows may. Values come from numbers and always may;
the names are not among them. -/
structure Grid.IsLegible (g : Grid) : Prop where
  /-- Those of the faces. -/
  faces : ArePlain g.faces
  /-- Those of the vertices. -/
  vertices : ArePlain g.vertices
  /-- Those of the arrays. -/
  attributes : ∀ a ∈ g.attributes, ArePlain a.rows

/-- **A grid is written as its element.** The parts are written one after another, each on lines
of its own. -/
theorem Grid.writes {g : Grid} (h : g.IsLegible) : Writes g.lines [g.element] := by
  have hfaces := writes_dataItem "Int" (by decide) 8 g.faces.length 3 h.faces
  have hvertices := writes_dataItem "Float" (by decide) 4 g.vertices.length 3 h.vertices
  have htopology : IsTag
      s!"      <Topology TopologyType=\"Triangle\" NumberOfElements=\"{g.faces.length}\">"
      (tagText "Topology"
        [("TopologyType", "Triangle"), ("NumberOfElements", toString g.faces.length)]) :=
    ⟨6, by simp [tagText, toString_text]⟩
  have htopologyEnd : IsTag "      </Topology>" ('/' :: "Topology".toList) := ⟨6, by decide⟩
  have hgeometry : IsTag "      <Geometry GeometryType=\"XYZ\">"
      (tagText "Geometry" [("GeometryType", "XYZ")]) := ⟨6, by decide⟩
  have hgeometryEnd : IsTag "      </Geometry>" ('/' :: "Geometry".toList) := ⟨6, by decide⟩
  have hcount : ∀ entry ∈ [("TopologyType", "Triangle"),
      ("NumberOfElements", toString g.faces.length)], IsPlain entry.1 ∧ IsValue entry.2 := by
    simp only [List.forall_mem_cons]
    exact ⟨⟨by decide, by decide⟩, ⟨by decide, isValue_nat _⟩, List.forall_mem_nil _⟩
  have hattributes : ∀ a ∈ g.attributes, Writes a.lines [a.element] := fun a ha =>
    Attribute.writes (h.attributes a ha)
  have hentries : ∀ entry ∈ g.element.attributes, IsPlain entry.1 ∧ IsValue entry.2 := by
    simp only [element, List.forall_mem_cons]
    exact ⟨⟨by decide, isValue_escape _⟩, ⟨by decide, by decide⟩, List.forall_mem_nil _⟩
  have hgrid : IsTag s!"    <Grid Name=\"{escape g.name}\" GridType=\"Uniform\">"
      (tagText "Grid" g.element.attributes) := ⟨4, by simp [tagText, element, toString_text]⟩
  have hgridEnd : IsTag "    </Grid>" ('/' :: "Grid".toList) := ⟨4, by decide⟩
  -- Inside: the topology with the faces, the geometry with the vertices, and the attributes.
  have hinner := (writes_parent (by decide) hcount htopology htopologyEnd hfaces).append
    ((writes_parent (by decide) (by decide) hgeometry hgeometryEnd hvertices).append
      (writes_flatMap hattributes))
  have hwrites := writes_parent (by decide) hentries hgrid hgridEnd hinner
  simpa [lines, element] using hwrites

/-- **A descriptor is read** as the elements of its grids. The two lines before the root are no
elements, and are passed over. -/
theorem read_document {grids : List Grid} (h : ∀ g ∈ grids, g.IsLegible) :
    read (document grids) = some [root (grids.map Grid.element)] := by
  have hversion : IsTag "<?xml version=\"1.0\"?>" ('?' :: "xml version=\"1.0\"?".toList) :=
    ⟨0, by decide⟩
  have htype : IsTag "<!DOCTYPE Xdmf SYSTEM \"Xdmf.dtd\"[]>"
      ('!' :: "DOCTYPE Xdmf SYSTEM \"Xdmf.dtd\"[]".toList) := ⟨0, by decide⟩
  have hroot : IsTag "<Xdmf xmlns:xi=\"http://www.w3.org/2003/XInclude\" Version=\"2.2\">"
      (tagText "Xdmf" (root []).attributes) := ⟨0, by decide⟩
  have hrootEnd : IsTag "</Xdmf>" ('/' :: "Xdmf".toList) := ⟨0, by decide⟩
  have hdomain : IsTag "  <Domain>" (tagText "Domain" []) := ⟨2, by decide⟩
  have hdomainEnd : IsTag "  </Domain>" ('/' :: "Domain".toList) := ⟨2, by decide⟩
  have hgrids : ∀ g ∈ grids, Writes g.lines [g.element] := fun g hg => Grid.writes (h g hg)
  have hinner := writes_parent (by decide) (List.forall_mem_nil _) hdomain hdomainEnd
    (writes_flatMap hgrids)
  -- The two declarations leave no element, so only the root is read.
  have hall := (writes_declaration (.inl rfl) hversion (by decide) (by decide)).append
    ((writes_declaration (.inr rfl) htype (by decide) (by decide)).append
      (writes_parent (by decide) (by decide) hroot hrootEnd hinner))
  exact read_join (by simpa [header, footer, root] using hall)

end Meshwork.Xdmf
