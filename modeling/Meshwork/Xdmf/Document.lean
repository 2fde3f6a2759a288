import Meshwork.Xdmf.Basic

/-!
# The text of a descriptor

A descriptor is an XML document. Names of objects stand in attributes and
are escaped; everything else is digits and fixed words. Each row of values
is a line.

The text is a list of lines with fixed indentation. Dimensions are declared on the line
that opens an item, before its rows.
-/

namespace Meshwork.Xdmf

/-- A character within an attribute of an XML element. -/
def escapeChar (c : Char) : List Char :=
  if c = '&' then "&amp;".toList
  else if c = '<' then "&lt;".toList
  else if c = '>' then "&gt;".toList
  else if c = '"' then "&quot;".toList
  else if c = '\'' then "&apos;".toList
  else [c]

/-- **A text within an attribute of an XML element.** Five characters are replaced by references,
and all others stay. -/
def escape (text : String) : String := String.ofList (text.toList.flatMap escapeChar)

/-- What a center is called. -/
def Center.text : Center → String
  | node => "Node"
  | cell => "Cell"

/-- What the values of a type are called. -/
def numberType : ElementType → String
  | .int8 => "Char"
  | .uint8 | .bool => "UChar"
  | .int16 | .int32 | .int64 => "Int"
  | .uint16 | .uint32 | .uint64 => "UInt"
  | .float32 | .float64 => "Float"

/-- What rows of a length are called. -/
def attributeType (components : Nat) : String :=
  if components = 1 then "Scalar" else if components = 3 then "Vector" else "Matrix"

/-- The lines of rows of values, between the lines of their element. -/
def dataItem (type : String) (precision rowCount components : Nat) (rows : List (List String)) :
    List String :=
  ["        <DataItem Format=\"XML\" "
      ++ s!"NumberType=\"{type}\" Precision=\"{precision}\" Dimensions=\"{rowCount} {components}\">"]
    ++ rows.map (fun row => "          " ++ " ".intercalate row)
    ++ ["        </DataItem>"]

/-- The lines of an attribute. -/
def Attribute.lines (a : Attribute) : List String :=
  let name := escape a.name
  let type := attributeType a.components
  [s!"      <Attribute Name=\"{name}\" AttributeType=\"{type}\" Center=\"{a.center.text}\">"]
    ++ dataItem (numberType a.type) a.type.size a.rowCount a.components a.rows
    ++ ["      </Attribute>"]

/-- The lines of a grid. -/
def Grid.lines (g : Grid) : List String :=
  let name := escape g.name
  let faceCount := g.faces.length
  [s!"    <Grid Name=\"{name}\" GridType=\"Uniform\">",
    s!"      <Topology TopologyType=\"Triangle\" NumberOfElements=\"{faceCount}\">"]
    ++ dataItem "Int" 8 faceCount 3 g.faces
    ++ ["      </Topology>", "      <Geometry GeometryType=\"XYZ\">"]
    ++ dataItem "Float" 4 g.vertices.length 3 g.vertices
    ++ ["      </Geometry>"]
    ++ g.attributes.flatMap Attribute.lines
    ++ ["    </Grid>"]

/-- The lines before the grids. -/
def header : List String :=
  ["<?xml version=\"1.0\"?>", "<!DOCTYPE Xdmf SYSTEM \"Xdmf.dtd\"[]>",
    "<Xdmf xmlns:xi=\"http://www.w3.org/2003/XInclude\" Version=\"2.2\">", "  <Domain>"]

/-- The lines after the grids. -/
def footer : List String := ["  </Domain>", "</Xdmf>"]

/-- **The text of a descriptor.** Every line ends with a line feed, the last one included. -/
def document (grids : List Grid) : String :=
  String.join ((header ++ grids.flatMap Grid.lines ++ footer).map (· ++ "\n"))

/-- **The descriptor of a store.** It is made from the store alone, without the container beside
it. -/
def render (s : Store) : String := document (gridsOf s)

/-- The location of the descriptor of a container. -/
def siblingPath (container : String) : String := container ++ ".xdmf"

end Meshwork.Xdmf
