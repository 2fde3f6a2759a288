import Meshwork.Keyed
import Meshwork.Parameter.Value

/-!
# Arguments

The arguments of a filter are values under the keys of its parameters. Each
kind has its own look-up, which also accepts what can be read as that kind:
an integer as a float, and a text as either kind of location.

Arguments that come from a file may hold anything that JSON can say, as far as it is a
value of some kind. What is wrong with them for a filter is found when they are bound.
-/

namespace Meshwork

/-- **The arguments of a filter.** They are named values in order of their keys, before and after
binding. -/
abbrev Arguments := Keyed ParameterValue

/-- **Why an argument cannot be had.** After binding without an error none of these comes up for a
parameter of its own kind. -/
inductive ArgumentError where
  /-- There is none under the key. -/
  | missing (key : String)
  /-- It is of another kind. -/
  | wrongKind (key : String) (expected : ParameterKind)
deriving DecidableEq, Repr

/-- The text of an error. -/
def ArgumentError.message : ArgumentError → String
  | missing key => s!"argument '{key}' is not set"
  | wrongKind key expected => s!"argument '{key}' is not a {expected.name}"

namespace ParameterValue

/-- The value as a truth value. -/
def bool? : ParameterValue → Option Bool
  | bool value => some value
  | _ => none

/-- The value as an integer. -/
def integer? : ParameterValue → Option Int64
  | integer value => some value
  | _ => none

/-- The value as a float. -/
def float? : ParameterValue → Option Double
  | float value => some value
  | integer value => some (.ofInt value.toInt)
  | _ => none

/-- The value as a text. -/
def text? : ParameterValue → Option String
  | text value => some value
  | _ => none

/-- The value as the location of a file. -/
def filePath? : ParameterValue → Option String
  | filePath value => some value
  | text value => some value
  | _ => none

/-- The value as a path in a store. -/
def dataPath? : ParameterValue → Option DataPath
  | dataPath value => some value
  | text value => (DataPath.parse value).toOption
  | _ => none

end ParameterValue

namespace Arguments

/-- The argument under a key, read as a kind. -/
def read {α : Type} (expected : ParameterKind) (take : ParameterValue → Option α)
    (key : String) (args : Arguments) : Except ArgumentError α :=
  match args.find? key with
  | none => .error (.missing key)
  | some value =>
    match take value with
    | none => .error (.wrongKind key expected)
    | some x => .ok x

/-- A truth value. -/
def bool (key : String) (args : Arguments) : Except ArgumentError Bool :=
  args.read .bool ParameterValue.bool? key

/-- An integer. -/
def integer (key : String) (args : Arguments) : Except ArgumentError Int64 :=
  args.read .integer ParameterValue.integer? key

/-- A float. -/
def float (key : String) (args : Arguments) : Except ArgumentError Double :=
  args.read .float ParameterValue.float? key

/-- A text. -/
def text (key : String) (args : Arguments) : Except ArgumentError String :=
  args.read .text ParameterValue.text? key

/-- The location of a file. -/
def filePath (key : String) (args : Arguments) : Except ArgumentError String :=
  args.read .filePath ParameterValue.filePath? key

/-- A path in a store. -/
def dataPath (key : String) (args : Arguments) : Except ArgumentError DataPath :=
  args.read .dataPath ParameterValue.dataPath? key

/-- The arguments in JSON. -/
def json (args : Arguments) : Json.Value :=
  .object (args.map fun (key, value) => (key, value.json))

/-- The canonical rendering of arguments. -/
def canonical (args : Arguments) : String :=
  "Arguments \x7b values: \x7b"
    ++ ", ".intercalate (args.map fun (key, value) => quoted key ++ ": " ++ value.canonical)
    ++ "\x7d \x7d"

/-- **Arguments from JSON**: an object. Of two values under one key the later
counts. `depth` says how deeply a value may nest. -/
def ofTree (depth : Nat) : Json.Tree → Except Json.Error Arguments
  | .object members finish =>
    Json.foldMembers (fun args key tree => do
      let value ← tree.value depth
      let value ← ParameterValue.ofJson value
      return Keyed.insert key value args) finish [] members
  | tree => .error (tree.unexpected "a map")

/-- Arguments from the text of a JSON document. -/
def parse (text : String) : Except Json.Error Arguments :=
  Json.takeDocument (ofTree (Json.depthLimit - 1)) (text.toList.map some)

end Arguments

end Meshwork
