import Meshwork.FileSystem.Basic
import Meshwork.Pipeline.Basic

/-!
# Settings

Three settings may be kept in a file: what follows when a step of a pipeline
fails, whether exports come with a descriptor, and how much is logged. Each
lies in a section of its own, and a section can be there without its setting.

A setting is read and written as text under its key. `Settings.write` takes only
texts that make sense, while a file may hold others, which `Settings.validate`
finds. Like every change, it leaves settings also when it is refused; that these
are the same as before is a statement about it and not part of its type.
-/

namespace Meshwork

/-- **A setting.** There is a fixed number of them, each with a key and the texts that it may
have. -/
inductive Setting where
  /-- What follows when a step of a pipeline fails. -/
  | failurePolicy
  /-- Whether exports come with a descriptor. -/
  | writeAuxiliary
  /-- How much is logged. -/
  | logLevel
deriving DecidableEq, Repr

namespace Setting

/-- Every setting, in order. -/
def all : List Setting := [failurePolicy, writeAuxiliary, logLevel]

/-- The key of a setting: its section and its name there. -/
def key : Setting → String
  | failurePolicy => "pipeline.failure_policy"
  | writeAuxiliary => "export.write_auxiliary"
  | logLevel => "log.level"

/-- The setting of a key. -/
def ofKey? (key : String) : Option Setting := all.find? (·.key == key)

/-- A key belongs to the setting that it is the key of. -/
@[simp] theorem ofKey?_key (s : Setting) : ofKey? s.key = some s := by
  cases s <;> rfl

end Setting

/-- How much may be logged. -/
def logLevels : List String := ["off", "error", "warn", "info", "debug", "trace"]

/-- **What is wrong with settings.** All but the last say which file or which setting they are
about. -/
inductive SettingsError where
  /-- A file with settings cannot be read. -/
  | read (path : String) (cause : FileError)
  /-- A file holds no settings. -/
  | parse (path : String)
  /-- A file with settings cannot be written. -/
  | write (path : String) (cause : FileError)
  /-- The text is none of those that the setting may be. -/
  | notAllowed (setting : Setting) (text : String) (allowed : List String)
  /-- The text of a setting that is a truth value is none. -/
  | notBoolean (setting : Setting) (text : String)
  /-- There is no such setting. -/
  | unknownKey (key : String)
  /-- It is not known where the settings of the user lie. -/
  | noHomeDirectory
deriving DecidableEq, Repr

/-- The text of an error. -/
def SettingsError.message : SettingsError → String
  | read path cause => s!"failed to read config file '{path}': {cause.message}"
  | parse path => s!"failed to parse config file '{path}': TOML parse error"
  | write path cause => s!"failed to write config file '{path}': {cause.message}"
  | notAllowed setting text allowed =>
    let list := ", ".intercalate allowed
    s!"invalid config value: invalid {setting.key} '{text}', must be one of: {list}"
  | notBoolean setting text =>
    s!"invalid config value: {setting.key} must be true or false, got '{text}'"
  | unknownKey key => s!"unknown configuration key: {key}"
  | noHomeDirectory => "home directory not found"

/-- **The settings of a file.** Each section may be missing, and the setting may be missing from
its section. So an empty section is told from a missing one. -/
structure Settings where
  /-- The section on pipelines. -/
  pipeline : Option (Option String)
  /-- The section on exports. -/
  exports : Option (Option Bool)
  /-- The section on logging. -/
  log : Option (Option String)
deriving DecidableEq, Repr

namespace Settings

/-- No settings. -/
def empty : Settings := ⟨none, none, none⟩

instance : Inhabited Settings := ⟨empty⟩

/-- The text of a setting, if it is set. -/
def get? (s : Settings) : Setting → Option String
  | .failurePolicy => s.pipeline.join
  | .writeAuxiliary => s.exports.join.map ParameterValue.boolText
  | .logLevel => s.log.join

/-- **The text under a key**, if it is set. A key that belongs to no setting is an error and not
just unset. -/
def lookup (s : Settings) (key : String) : Except SettingsError (Option String) :=
  match Setting.ofKey? key with
  | none => .error (.unknownKey key)
  | some setting => .ok (s.get? setting)

/-- Refuses a text that is none of the allowed ones. -/
def checkAllowed (setting : Setting) (allowed : List String) (text : String) :
    Except SettingsError Unit :=
  if text ∈ allowed then .ok () else .error (.notAllowed setting text allowed)

/-- The names of the policies. -/
def policies : List String := FailurePolicy.all.map FailurePolicy.text

/-- The truth value that a text names. -/
def boolOf? (text : String) : Option Bool :=
  if text = "true" then some true else if text = "false" then some false else none

/-! ## Changing settings

A change may be refused for its key or for its text. Setting something in a section that
is missing creates the section. -/

/-- **A change of settings**, which may be refused, and leaves settings in either case. Every
change here that is refused leaves them as they were. -/
abbrev Change := ExceptT SettingsError (StateM Settings) Unit

/-- What a change comes to, and the settings that it leaves. -/
def Change.apply (change : Change) (s : Settings) : Except SettingsError Unit × Settings :=
  Id.run (StateT.run (ExceptT.run change) s)

/-- Refuses what a check refuses. -/
def Change.check (outcome : Except SettingsError Unit) : Change :=
  match outcome with
  | .ok () => pure ()
  | .error e => throw e

/-- **Sets a setting**, and thereby brings its section into being. The text is checked before
anything is changed. -/
def assign (text : String) : Setting → Change
  | .failurePolicy => do
    Change.check (checkAllowed .failurePolicy policies text)
    modify fun s => { s with pipeline := some (some text) }
  | .writeAuxiliary =>
    match boolOf? text with
    | none => throw (.notBoolean .writeAuxiliary text)
    | some value => modify fun s => { s with exports := some (some value) }
  | .logLevel => do
    Change.check (checkAllowed .logLevel logLevels text)
    modify fun s => { s with log := some (some text) }

/-- **Sets the setting of a key.** An unknown key is refused before the text is looked at. -/
def write (key text : String) : Change :=
  match Setting.ofKey? key with
  | none => throw (.unknownKey key)
  | some setting => assign text setting

/-- The settings with the setting of a key. -/
def set (s : Settings) (key text : String) : Except SettingsError Settings :=
  match (write key text).apply s with
  | (.ok (), s) => .ok s
  | (.error e, _) => .error e

/-! ## Checking settings

What was read from a file is checked as a whole, before it is used or written. -/

/-- Refuses a text that is set and none of the allowed ones. -/
def checkSet (setting : Setting) (allowed : List String) : Option String → Except SettingsError Unit
  | none => .ok ()
  | some text => checkAllowed setting allowed text

/-- **Refuses settings that make no sense**, the policy before the rest. A setting that is a truth
value makes sense in any case. -/
def validate (s : Settings) : Except SettingsError Unit := do
  checkSet .failurePolicy policies s.pipeline.join
  checkSet .logLevel logLevels s.log.join

end Settings

end Meshwork
