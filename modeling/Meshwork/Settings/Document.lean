import Meshwork.Settings.Basic
import Meshwork.Toml.Document

/-!
# Files with settings

Settings are written as a TOML document with one table per section. In
reading, a section may also be a list that holds the setting alone; whatever
belongs to no setting is refused.

The document that is written has the sections that are there, including those without a
setting in them.
-/

namespace Meshwork.Settings

open Toml (Value Entries)

/-- The items of a list: an array, or the elements of an array of tables. -/
def items? : Value → Option (List Value)
  | .array items => some items
  | .tables earlier last => some ((earlier ++ [last]).map (.table .header))
  | _ => none

/-- A setting that its section gives or not. -/
def takeOptional {α : Type} (take : Value → Option α) : Option Value → Option (Option α)
  | none => some none
  | some value => (take value).map some

/-- **A section** with a single setting of the given name. -/
def takeSection {α : Type} (name : String) (take : Value → Option α) (value : Value) :
    Option (Option α) :=
  match value with
  | .table _ entries =>
    if entries.all fun (key, _) => key = name then takeOptional take (Keyed.find? name entries)
    else none
  | value => do takeOptional take (← items? value).head?

/-- A text. -/
def takeText : Value → Option String
  | .string text => some text
  | _ => none

/-- A truth value. -/
def takeBool : Value → Option Bool
  | .bool value => some value
  | _ => none

/-- The names of the sections. -/
def sections : List String := ["pipeline", "export", "log"]

/-- The settings of a document. -/
def ofEntries? (entries : Entries) : Option Settings :=
  if entries.all fun (key, _) => sections.contains key then do
    let section? {α : Type} (name field : String) (take : Value → Option α) :=
      takeOptional (takeSection field take) (Keyed.find? name entries)
    let pipeline ← section? "pipeline" "failure_policy" takeText
    let exports ← section? "export" "write_auxiliary" takeBool
    let log ← section? "log" "level" takeText
    return ⟨pipeline, exports, log⟩
  else none

/-- **Reads settings.** What is wrong with a text is not told, only that something is. -/
def parse? (text : String) : Option Settings := do ofEntries? (← Toml.read text)

/-- The lines of a section. -/
def sectionText {α : Type} (name field : String) (write : α → String) : Option α → String
  | none => s!"[{name}]\n"
  | some value => s!"[{name}]\n{field} = {write value}\n"

/-- **The document of settings.** Empty lines stand between the sections. Sections that are
missing are left out. -/
def text (s : Settings) : String :=
  "\n".intercalate <|
    [s.pipeline.map (sectionText "pipeline" "failure_policy" Toml.string),
      s.exports.map (sectionText "export" "write_auxiliary" ParameterValue.boolText),
      s.log.map (sectionText "log" "level" Toml.string)].filterMap id

end Meshwork.Settings
