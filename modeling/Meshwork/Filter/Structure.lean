import Meshwork.Filter.Input

/-!
# Filters on the structure of a store

`createGroup` makes an empty group below an object that exists, and
`deleteData` takes out an object with all beneath it.

Both have a single parameter, the path, and ask for a single edit. Taking out looks
beforehand whether there is something to take out, in order to say so in its own words.
-/

namespace Meshwork.Filter

/-- The parameter of both filters. -/
def pathParameter (title help : String) : Parameter :=
  ⟨"data_path", title, help, .dataPath, none, none⟩

/-- The path in the arguments. -/
def targetPath (args : Arguments) : Except Findings DataPath := argument (args.dataPath "data_path")

/-- Turns the one edit of a filter into work. -/
def performEdit (edit : DataPath → Edit) (args : Arguments) : Outcome :=
  match targetPath args with
  | .ok path => ⟨.none, [edit path]⟩
  | .error findings => .failed findings

/-- The edit that makes a group. -/
def groupEdit (path : DataPath) : Edit := .insert path (.leaf .group) false

/-- **Makes an empty group.** The groups above it must be there, as none is made on the way. -/
def createGroup : Filter where
  info :=
    { name := "create_data_group"
      uuid := .ofNat 0x5c3a7f1e2b0d4c6a9e8f1a2b3c4d5e04
      title := "Create Data Group"
      tags := ["core", "create", "group"]
      version := 1 }
  parameters := [pathParameter "Data Group Path" "Path of the new group"]
  plan _ _ args :=
    match targetPath args with
    | .ok path => ⟨.none, [groupEdit path]⟩
    | .error findings => .failed findings
  perform _ args := pure (performEdit groupEdit args)

/-- **Takes out an object with all beneath it.** That nothing lies there is found before the work,
since the plan looks into the store. -/
def deleteData : Filter where
  info :=
    { name := "delete_data"
      uuid := .ofNat 0x5c3a7f1e2b0d4c6a9e8f1a2b3c4d5e05
      title := "Delete Data"
      tags := ["core", "delete", "remove"]
      version := 1 }
  parameters := [pathParameter "Data Path" "Object to remove, with its descendants"]
  plan _ s args :=
    match targetPath args with
    | .error findings => .failed findings
    | .ok path =>
      if s.contains path then ⟨.none, [.remove path]⟩
      else .failed (.ofError .pathNotFound s!"no object exists at '{path.text}'")
  perform _ args := pure (performEdit .remove args)

end Meshwork.Filter
