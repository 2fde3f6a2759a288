import Meshwork.Filter.Basic
import Meshwork.Mesh.Basic

/-!
# Input files of filters

What the filters that read files have in common: how a file that is missing,
cannot be read or is not of its format is reported.
-/

namespace Meshwork

/-- An argument that is not there although it was bound. It does not happen
for parameters that a filter declares. -/
def ArgumentError.finding (e : ArgumentError) : Findings := .ofError .internal e.message

/-- A file that is not of its format. -/
def CodecError.finding (path : String) (e : CodecError) : Findings :=
  .ofError .parseError s!"{path}: {e.message}"

namespace Filter

/-- An argument of a filter. -/
def argument {α : Type} (value : Except ArgumentError α) : Except Findings α :=
  value.mapError ArgumentError.finding

/-- Asks for a file that exists. -/
def requireFile (files : FileSystem) (path : String) : Except Findings Unit :=
  if files.isFile path then .ok ()
  else .error (.ofError .fileNotFound s!"input file '{path}' does not exist")

/-- **The contents of an input file.** A missing file is told from one that cannot be read. -/
def readInput (files : FileSystem) (path : String) : Except Findings Bytes :=
  (files.read path).mapError fun e =>
    .ofError (if e = .notFound then .fileNotFound else .readError)
      s!"cannot read '{path}': {e.message}"

end Filter

end Meshwork
