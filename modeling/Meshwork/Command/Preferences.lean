import Meshwork.Command.Task

/-!
# Commands on settings

Showing and changing the settings in effect. A change goes into the file of
the user or of the project; the file of the user that was read is the one
that is written.
-/

namespace Meshwork.Task

/-- **Shows a setting.** Nothing is printed if it is not set. -/
def getSetting (key : String) : Task Unit := do
  match (← configuration).lookup key with
  | .ok (some value) => print value
  | .ok none => return
  | .error _ => throw (.unknownKey key)

/-- Changes a setting of the project. -/
def setForProject (c : Configuration) (key value : String) : Task String := do
  let path := Configuration.projectFile (← directory)
  let settings ← ofExcept .changeSetting ((c.project.getD .empty).set key value)
  withFiles .saveProject (settings.save path)
  return path

/-- Changes a setting of the user. -/
def setForUser (c : Configuration) (key value : String) : Task String := do
  let settings ← ofExcept .changeSetting (c.user.set key value)
  let environment := (← surroundings).environment
  let path ← match c.userPath with
    | some path => pure path
    | none => ofExcept .saveUser environment.userFile
  withFiles .saveUser (settings.save path)
  return path

/-- **Changes a setting.** -/
def setSetting (key value : String) (project : Bool) : Task Unit := do
  let configuration ← configuration
  let path ← if project then setForProject configuration key value
    else setForUser configuration key value
  mention s!"Set {key} = {value} ({path})"

/-- **Shows all settings**, and the files that they come from. -/
def listSettings : Task Unit := do
  let configuration ← configuration
  mention "# Configuration"
  let user := configuration.userPath.getD "(none)"
  mention s!"# global:  {user}"
  let project := configuration.projectPath.getD "(none)"
  mention s!"# project: {project}"
  printAll (Setting.all.map fun setting =>
    let value := (configuration.get? setting).getD "(not set)"
    s!"{setting.key} = {value}")

end Meshwork.Task
