import Meshwork.DataPath
import Meshwork.Json.Decode

/-!
# Parameter values

What a filter takes as input: a truth value, an integer, a float, a text, the
location of a file or a path in a store. In pipeline files all of them are
plain JSON, so both kinds of location come as texts there; binding turns
them into what the filter asks for.

Integers and floats are told apart by how their number is written: one that 64 bits hold
without a point is an integer. Binding may turn it into a float.
-/

namespace Meshwork

/-- **The kind of a parameter.** It decides which arguments are taken and how they are converted. -/
inductive ParameterKind where
  /-- A truth value. -/
  | bool
  /-- An integer of 64 bits. -/
  | integer
  /-- A 64-bit float. -/
  | float
  /-- A text. -/
  | text
  /-- The location of a file. -/
  | filePath
  /-- A path in a store. -/
  | dataPath
deriving DecidableEq, Repr

namespace ParameterKind

/-- Every kind, in the order of declaration. -/
def all : List ParameterKind := [bool, integer, float, text, filePath, dataPath]

/-- The kind in messages. -/
def name : ParameterKind → String
  | bool => "bool"
  | integer => "integer"
  | float => "float"
  | text => "string"
  | filePath => "file path"
  | dataPath => "data path"

/-- The kind in descriptions of filters. -/
def tag : ParameterKind → String
  | filePath => "file_path"
  | dataPath => "data_path"
  | kind => kind.name

end ParameterKind

/-- **The value of a parameter.** Locations and paths are kinds of their own, although they are
written as texts. -/
inductive ParameterValue where
  /-- A truth value. -/
  | bool (value : Bool)
  /-- An integer. -/
  | integer (value : Int64)
  /-- A float. -/
  | float (value : Double)
  /-- A text. -/
  | text (value : String)
  /-- The location of a file. -/
  | filePath (value : String)
  /-- A path in a store. -/
  | dataPath (value : DataPath)
deriving DecidableEq

namespace ParameterValue

/-- The kind of the value. -/
def kind : ParameterValue → ParameterKind
  | bool _ => .bool
  | integer _ => .integer
  | float _ => .float
  | text _ => .text
  | filePath _ => .filePath
  | dataPath _ => .dataPath

/-- The text of a truth value. -/
def boolText (value : Bool) : String := if value then "true" else "false"

/-- The value in messages. Only a text stands between quotation marks. -/
def shown : ParameterValue → String
  | bool value => boolText value
  | integer value => toString value.toInt
  | float value => value.write .plain
  | text value => "\"" ++ value ++ "\""
  | filePath value => value
  | dataPath value => value.text

/-- The canonical rendering of the value. -/
def canonical : ParameterValue → String
  | bool value => "Bool(" ++ boolText value ++ ")"
  | integer value => "Integer(" ++ toString value.toInt ++ ")"
  | float value => "Float(" ++ value.write .canonical ++ ")"
  | text value => "String(" ++ quoted value ++ ")"
  | filePath value => "FilePath(" ++ quoted value ++ ")"
  | dataPath value => "DataPath(DataPath(" ++ bracketed (value.segments.map quoted) ++ "))"

/-- The number of an integer in JSON. -/
def integerJson (value : Int) : Json.Value :=
  .number (if value < 0 then .negative value.natAbs else .natural value.toNat)

/-- **The value in JSON.** A float that is no number becomes `null`. Locations and paths become
texts, and their kind is not kept. -/
def json : ParameterValue → Json.Value
  | bool value => .bool value
  | integer value => integerJson value.toInt
  | float value => if value.isFinite then .number (.float value) else .null
  | text value => .string value
  | filePath value => .string value
  | dataPath value => .string value.text

/-- A number in JSON as a value: an integer if 64 bits hold it. -/
def ofNumber : Json.Number → ParameterValue
  | .natural value => if value < Nat.pow 2 63 then integer (.ofNat value) else float (.ofInt value)
  | .negative value => integer (.ofInt (-(value : Int)))
  | .float value => float value

/-- **A value from JSON.** Lists, objects and `null` are none. A number with a point or an
exponent is a float, and so is an integer that is too large. -/
def ofJson : Json.Value → Except Json.Error ParameterValue
  | .bool value => .ok (bool value)
  | .number value => .ok (ofNumber value)
  | .string value => .ok (text value)
  | _ => .error (.custom "data did not match any variant of untagged enum ParameterValue")

end ParameterValue

end Meshwork
