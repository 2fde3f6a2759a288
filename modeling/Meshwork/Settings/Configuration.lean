import Meshwork.FileSystem.Write
import Meshwork.Settings.Document

/-!
# Settings in effect

Settings come from two files. One belongs to the user; it is the first that
exists of a few locations, which depend on the environment. The other belongs
to the project and lies in its directory. A setting of the project is
preferred to that of the user, and what neither sets has its usual value.

Precedence is decided setting by setting, and not file by file: a project that sets one of
them leaves the others to the user.
-/

namespace Meshwork

/-- **What a program is told by its surroundings.** -/
structure Environment where
  /-- The variables. -/
  values : Keyed String
  /-- The home directory of the account. -/
  accountHome : Option String

namespace Environment

/-- The variable that names the file with the settings of the user. -/
def fileVariable : String := "MESHPIPE_CONFIG"

/-- The variable that names the directory of such files. -/
def directoryVariable : String := "XDG_CONFIG_HOME"

/-- The file with the settings of the user, below the home directory. -/
def homeFile : String := ".meshpipe/config.toml"

/-- The value of a variable. -/
def get? (e : Environment) (name : String) : Option String := Keyed.find? name e.values

/-- **The home directory.** An empty variable does not count. The account has one as well, which
is taken then. -/
def home? (e : Environment) : Option String :=
  match e.get? "HOME" with
  | some home => if home = "" then e.accountHome else some home
  | none => e.accountHome

/-- Where the settings of the user may lie, in order. -/
def candidates (e : Environment) : List String :=
  [e.get? fileVariable,
    (e.get? directoryVariable).map (FilePath.join · "meshpipe/config.toml"),
    e.home?.map (FilePath.join · homeFile)].filterMap id

/-- **Where the settings of the user are written** if there are none. A variable that names a file
goes before the home directory. -/
def userFile (e : Environment) : Except SettingsError String :=
  match e.get? fileVariable with
  | some path => .ok path
  | none =>
    match e.home? with
    | some home => .ok (FilePath.join home homeFile)
    | none => .error .noHomeDirectory

end Environment

namespace Settings

/-- Reads a file with settings. -/
def load (files : FileSystem) (path : String) : Except SettingsError Settings := do
  let text ← (files.readText path).mapError (.read path)
  match parse? text with
  | some settings => return settings
  | none => throw (.parse path)

/-- **Writes settings to a file**, unless they make no sense. The directory is created if it is
missing. -/
def save (s : Settings) (path : String) (fs : FileSystem) :
    Except SettingsError Unit × FileSystem :=
  match s.validate with
  | .error e => (.error e, fs)
  | .ok () =>
    match fs.makeParent path with
    | (.error e, fs) => (.error (.write path e), fs)
    | (.ok (), fs) =>
      match fs.writeAtomic path (bytesOf s.text) with
      | (.error e, fs) => (.error (.write path e), fs)
      | (.ok (), fs) => (.ok (), fs)

end Settings

/-- **The settings in effect.** Where each came from is kept as well, to be shown and to be
written to. -/
structure Configuration where
  /-- The settings of the user. -/
  user : Settings
  /-- The settings of the project, if it has a file. -/
  project : Option Settings
  /-- The file of the user. -/
  userPath : Option String
  /-- The file of the project. -/
  projectPath : Option String

namespace Configuration

/-- The name of the file in the directory of a project. -/
def projectName : String := ".meshpipe.toml"

/-- The file of the project in a directory. -/
def projectFile (directory : String) : String := FilePath.join directory projectName

/-- The settings of the first file that exists. -/
def loadFirst (files : FileSystem) :
    List String → Except SettingsError (Option (Settings × String))
  | [] => .ok none
  | path :: rest =>
    if files.pathExists path then do
      let settings ← Settings.load files path
      return some (settings, path)
    else loadFirst files rest

/-- **The settings in effect** for a project. Both files are read before either is checked. A file
that does not exist sets nothing. -/
def load (environment : Environment) (files : FileSystem) (directory : Option String) :
    Except SettingsError Configuration := do
  let user ← loadFirst files environment.candidates
  let project ← loadFirst files (directory.map projectFile).toList
  let settings := (user.map Prod.fst).getD .empty
  settings.validate
  if let some (settings, _) := project then settings.validate
  return ⟨settings, project.map Prod.fst, user.map Prod.snd, project.map Prod.snd⟩

/-- The text of a setting, if it is set. -/
def get? (c : Configuration) (setting : Setting) : Option String :=
  (c.project.bind (·.get? setting)).or (c.user.get? setting)

/-- **The text under a key**, if it is set. The project goes before the user. -/
def lookup (c : Configuration) (key : String) : Except SettingsError (Option String) :=
  match Setting.ofKey? key with
  | none => .error (.unknownKey key)
  | some setting => .ok (c.get? setting)

/-- The name of the policy for steps that fail. -/
def failurePolicy (c : Configuration) : String :=
  ((c.project.bind (·.pipeline.join)).or c.user.pipeline.join).getD FailurePolicy.standard.text

/-- Whether exports come with a descriptor. -/
def writeAuxiliary (c : Configuration) : Bool :=
  ((c.project.bind (·.exports.join)).or c.user.exports.join).getD true

/-- How much is logged, if that is set. -/
def logLevel? (c : Configuration) : Option String :=
  (c.project.bind (·.log.join)).or c.user.log.join

end Configuration

end Meshwork
