import Meshwork.Json.Value

/-!
# Diagnostics

Whatever goes wrong in a filter in a way that can be expected is reported as
a diagnostic: a code and a message, with the filter that it comes from.
`Findings` collects them as errors and warnings, in the order in which they
arose; findings of several steps are put one after another.

A code has a number that scripts may rely on, and a category that says how
it should be handled.
-/

namespace Meshwork

/-- **How a diagnostic should be handled.** Every code belongs to one. -/
inductive Category where
  /-- Bad parameters, paths or types. -/
  | validation
  /-- Inconsistent geometry or numbers of tuples. -/
  | dataIntegrity
  /-- Failures of the file system. -/
  | files
  /-- The run was stopped. -/
  | control
  /-- A defect; does not happen. -/
  | internal
  /-- A notice. -/
  | advisory
deriving DecidableEq, Repr

/-- The name of a category. -/
def Category.tag : Category → String
  | validation => "validation"
  | dataIntegrity => "data_integrity"
  | files => "io"
  | control => "control"
  | internal => "internal"
  | advisory => "advisory"

/-- **What a diagnostic is about.** -/
inductive DiagnosticCode where
  /-- An argument for no parameter. -/
  | unknownParameter
  /-- A parameter without argument. -/
  | missingParameter
  /-- An argument of another kind. -/
  | parameterTypeError
  /-- A number outside its range. -/
  | outOfRange
  /-- A text that is no path. -/
  | invalidPath
  /-- An empty text. -/
  | emptyValue
  /-- Nothing lies at a path. -/
  | pathNotFound
  /-- A path is taken. -/
  | duplicatePath
  /-- An object of another kind. -/
  | typeMismatch
  /-- An object at a place where it may not lie. -/
  | invalidPlacement
  /-- A mesh that is no geometry. -/
  | invalidGeometry
  /-- A wrong number of tuples. -/
  | tupleCountMismatch
  /-- An input file that is not there. -/
  | fileNotFound
  /-- An input file that cannot be read. -/
  | readError
  /-- An input file that is not of its format. -/
  | parseError
  /-- An output file that cannot be written. -/
  | writeError
  /-- The run was stopped. -/
  | cancelled
  /-- A defect. -/
  | internal
  /-- A factor that has no effect. -/
  | scaleIgnored
  /-- Faces with fewer than three corners. -/
  | degenerateFaces
  /-- A file whose extension is not known. -/
  | unknownExtension
  /-- An object is replaced. -/
  | replacedExisting
  /-- A store without objects is written. -/
  | emptyStore
deriving DecidableEq, Repr

namespace DiagnosticCode

/-- Every code, in the order of declaration. -/
def all : List DiagnosticCode :=
  [unknownParameter, missingParameter, parameterTypeError, outOfRange, invalidPath, emptyValue,
    pathNotFound, duplicatePath, typeMismatch, invalidPlacement, invalidGeometry,
    tupleCountMismatch, fileNotFound, readError, parseError, writeError, cancelled, internal,
    scaleIgnored, degenerateFaces, unknownExtension, replacedExisting, emptyStore]

/-- The number of a code. -/
def number : DiagnosticCode → Int
  | unknownParameter => -1001
  | missingParameter => -1002
  | parameterTypeError => -1003
  | outOfRange => -1004
  | invalidPath => -1005
  | emptyValue => -1006
  | pathNotFound => -2001
  | duplicatePath => -2002
  | typeMismatch => -2003
  | invalidPlacement => -2004
  | invalidGeometry => -3001
  | tupleCountMismatch => -3002
  | fileNotFound => -4001
  | readError => -4002
  | parseError => -4003
  | writeError => -4004
  | cancelled => -5001
  | internal => -9001
  | scaleIgnored => -6001
  | degenerateFaces => -6002
  | unknownExtension => -6003
  | replacedExisting => -6004
  | emptyStore => -6005

/-- The category of a code. -/
def category : DiagnosticCode → Category
  | unknownParameter | missingParameter | parameterTypeError | outOfRange | invalidPath
  | emptyValue | pathNotFound | duplicatePath | typeMismatch | invalidPlacement => .validation
  | invalidGeometry | tupleCountMismatch => .dataIntegrity
  | fileNotFound | readError | parseError | writeError => .files
  | cancelled => .control
  | internal => .internal
  | scaleIgnored | degenerateFaces | unknownExtension | replacedExisting | emptyStore => .advisory

/-- The name of a code. -/
def name : DiagnosticCode → String
  | unknownParameter => "UnknownParameter"
  | missingParameter => "MissingParameter"
  | parameterTypeError => "ParameterTypeError"
  | outOfRange => "OutOfRange"
  | invalidPath => "InvalidPath"
  | emptyValue => "EmptyValue"
  | pathNotFound => "PathNotFound"
  | duplicatePath => "DuplicatePath"
  | typeMismatch => "TypeMismatch"
  | invalidPlacement => "InvalidPlacement"
  | invalidGeometry => "InvalidGeometry"
  | tupleCountMismatch => "TupleCountMismatch"
  | fileNotFound => "FileNotFound"
  | readError => "ReadError"
  | parseError => "ParseError"
  | writeError => "WriteError"
  | cancelled => "Cancelled"
  | internal => "Internal"
  | scaleIgnored => "ScaleIgnored"
  | degenerateFaces => "DegenerateFaces"
  | unknownExtension => "UnknownExtension"
  | replacedExisting => "ReplacedExisting"
  | emptyStore => "EmptyStore"

/-- Words that start with capitals, as small words with underscores between
them. -/
def underscored : List Char → List Char
  | [] => []
  | c :: rest => c.toLower :: rest.flatMap fun c => if c.isUpper then ['_', c.toLower] else [c]

/-- The name of a code in reports. -/
def tag (code : DiagnosticCode) : String := String.ofList (underscored code.name.toList)

/-- The name and the number of a code. -/
def text (code : DiagnosticCode) : String := s!"{code.name} ({code.number})"

/-- No two codes have the same number. -/
theorem number_injective {a b : DiagnosticCode} (h : a.number = b.number) : a = b := by
  cases a <;> cases b <;> first | rfl | exact absurd h (by decide)

end DiagnosticCode

/-! ## Diagnostics

A diagnostic is made where something goes wrong and gets the name of its filter later,
from the stages around it. One that has a name keeps it. -/

/-- **One error or warning.** The text is for people, while the code is for programs. -/
structure Diagnostic where
  /-- What it is about. -/
  code : DiagnosticCode
  /-- Its text. -/
  message : String
  /-- The filter that it comes from, once that is known. -/
  filter : Option String
deriving DecidableEq, Repr

namespace Diagnostic

/-- The diagnostic as a line. -/
def text (d : Diagnostic) : String :=
  match d.filter with
  | none => s!"{d.code.number}: {d.message}"
  | some filter => s!"[{filter}] {d.code.number}: {d.message}"

/-- The diagnostic with a filter that it comes from, unless it has one. -/
def attributed (filter : String) (d : Diagnostic) : Diagnostic :=
  { d with filter := some (d.filter.getD filter) }

/-- The diagnostic in reports. -/
def json (d : Diagnostic) : Json.Value :=
  .object ([("code", .string d.code.tag), ("message", .string d.message)]
    ++ match d.filter with
      | none => []
      | some filter => [("filter", .string filter)])

end Diagnostic

/-! ## Findings

Errors and warnings are two lists, so that putting findings behind one another keeps the
order within each and loses the order between them. -/

/-- **Errors and warnings**, each in order. Whether something failed is decided by the errors
alone. -/
structure Findings where
  /-- The errors. -/
  errors : List Diagnostic
  /-- The warnings. -/
  warnings : List Diagnostic
deriving DecidableEq, Repr

namespace Findings

/-- No findings. -/
def none : Findings := ⟨[], []⟩

instance : Inhabited Findings := ⟨none⟩

/-- One error. -/
def ofError (code : DiagnosticCode) (message : String) : Findings :=
  ⟨[⟨code, message, Option.none⟩], []⟩

/-- One warning. -/
def ofWarning (code : DiagnosticCode) (message : String) : Findings :=
  ⟨[], [⟨code, message, Option.none⟩]⟩

/-- **Findings after others**, the errors and the warnings each in order. This is how the findings
of stages are put together. -/
def append (a b : Findings) : Findings := ⟨a.errors ++ b.errors, a.warnings ++ b.warnings⟩

instance : Append Findings := ⟨append⟩

@[simp] theorem errors_append (a b : Findings) : (a ++ b).errors = a.errors ++ b.errors := rfl

@[simp] theorem warnings_append (a b : Findings) : (a ++ b).warnings = a.warnings ++ b.warnings :=
  rfl

/-- Whether there is an error. -/
def hasErrors (f : Findings) : Bool := !f.errors.isEmpty

/-- Whether there is a warning. -/
def hasWarnings (f : Findings) : Bool := !f.warnings.isEmpty

/-- Whether there is nothing. -/
def isClean (f : Findings) : Bool := f.errors.isEmpty && f.warnings.isEmpty

/-- Whether an error has the code. -/
def hasErrorCode (code : DiagnosticCode) (f : Findings) : Bool := f.errors.any (·.code == code)

/-- The findings with a filter that they come from, where they have none. -/
def attributed (filter : String) (f : Findings) : Findings :=
  ⟨f.errors.map (.attributed filter), f.warnings.map (.attributed filter)⟩

@[simp] theorem hasErrors_attributed (filter : String) (f : Findings) :
    (f.attributed filter).hasErrors = f.hasErrors := by
  simp [hasErrors, attributed]

/-- How many there are. -/
def summary (f : Findings) : String :=
  s!"{f.errors.length} error(s), {f.warnings.length} warning(s)"

/-- The findings as lines, after a line that counts them. -/
def text (f : Findings) : String :=
  f.summary ++ "\n"
    ++ String.join (f.errors.map fun d => "  error " ++ d.text ++ "\n")
    ++ String.join (f.warnings.map fun d => "  warning " ++ d.text ++ "\n")

/-- The findings in reports. -/
def json (f : Findings) : Json.Value :=
  .object [("errors", .array (f.errors.map Diagnostic.json)),
    ("warnings", .array (f.warnings.map Diagnostic.json))]

end Findings

end Meshwork
