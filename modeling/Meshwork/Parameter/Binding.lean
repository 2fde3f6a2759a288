import Meshwork.Diagnostic
import Meshwork.Parameter.Arguments

/-!
# Binding arguments to parameters

A filter declares its parameters. Binding gives each of them a value: the
argument under its key, or its default, converted to the kind that is
declared. An integer becomes a float where one is asked for, and a text the
location of a file or a path; nothing else is converted.

Every problem is found, not only the first: the arguments for no parameter,
in order of their keys, and then at most one for each parameter.
-/

namespace Meshwork

/-- **One end of a range.** It may be open to that side, and then every number is within. -/
inductive Bound where
  /-- The number itself is allowed. -/
  | included (value : Double)
  /-- The number itself is not allowed. -/
  | excluded (value : Double)
  /-- There is no end. -/
  | unbounded
deriving DecidableEq, Repr

/-- **What a value must satisfy** beyond its kind. It is checked of the converted value. -/
inductive Constraint where
  /-- A number must lie between two ends. -/
  | range (least greatest : Bound)
  /-- A text or the location of a file must not be empty. -/
  | nonEmpty
deriving DecidableEq, Repr

namespace Bound

/-- Whether a number lies above the bound. -/
def isBelow (x : Double) : Bound → Bool
  | included b => b.le x
  | excluded b => b.lt x
  | unbounded => true

/-- Whether a number lies below the bound. -/
def isAbove (x : Double) : Bound → Bool
  | included b => x.le b
  | excluded b => x.lt b
  | unbounded => true

/-- The lower end of a range in messages. -/
def lowerText : Bound → String
  | included b => "[" ++ b.write .plain
  | excluded b => "(" ++ b.write .plain
  | unbounded => "(-inf"

/-- The upper end of a range in messages. -/
def upperText : Bound → String
  | included b => b.write .plain ++ "]"
  | excluded b => b.write .plain ++ ")"
  | unbounded => "inf)"

end Bound

/-- The constraint in messages. -/
def Constraint.text : Constraint → String
  | range least greatest => least.lowerText ++ ", " ++ greatest.upperText
  | nonEmpty => "non-empty"

/-- **The declaration of a parameter.** A filter has a list of these, by which its arguments are
read, checked and explained. -/
structure Parameter where
  /-- The key of its argument. -/
  key : String
  /-- Its name for readers. -/
  title : String
  /-- What it means. -/
  help : String
  /-- The kind of its value. -/
  kind : ParameterKind
  /-- The value without an argument; without a default an argument is
  required. -/
  default? : Option ParameterValue
  /-- What its value must satisfy. -/
  constraint : Option Constraint
deriving DecidableEq

/-! ## Binding

What is given is converted first and then checked, so a value of a wrong kind is not also
told to be out of range. The default is treated like a value that was given. -/

/-- **Why a parameter gets no value**, or an argument belongs to none. Each of them names the key,
so that an error leads to an argument. -/
inductive BindingError where
  /-- No parameter has the key. -/
  | unknown (key : String)
  /-- There is neither an argument nor a default. -/
  | missing (key title : String)
  /-- The text is no path. -/
  | invalidPath (key text : String) (cause : PathError)
  /-- The value is of another kind. -/
  | wrongKind (key : String) (expected : ParameterKind) (found : ParameterValue)
  /-- The number does not lie in the range. -/
  | outOfRange (key : String) (value : Double) (least greatest : Bound)
  /-- The text is empty. -/
  | empty (key : String)
deriving DecidableEq

namespace BindingError

/-- The code of an error. -/
def code : BindingError → DiagnosticCode
  | unknown _ => .unknownParameter
  | missing .. => .missingParameter
  | invalidPath .. => .invalidPath
  | wrongKind .. => .parameterTypeError
  | outOfRange .. => .outOfRange
  | empty _ => .emptyValue

/-- The text of an error. -/
def message : BindingError → String
  | unknown key => s!"unknown parameter '{key}'"
  | missing key title => s!"required parameter '{key}' ({title}) is missing"
  | invalidPath key text cause =>
    s!"parameter '{key}': '{text}' is not a valid data path: {cause.message}"
  | wrongKind key expected found =>
    s!"parameter '{key}' expects a {expected.name}, got {found.kind.name} ({found.shown})"
  | outOfRange key value least greatest =>
    let shown := value.write .plain
    let range := (Constraint.range least greatest).text
    s!"parameter '{key}': {shown} is outside {range}"
  | empty key => s!"parameter '{key}': value must not be empty"

/-- The diagnostic of an error. -/
def diagnostic (e : BindingError) : Diagnostic := ⟨e.code, e.message, none⟩

end BindingError

namespace Parameter

/-- **The value converted to the kind of the parameter.** There are three conversions, and a value
of the kind is taken as it is. -/
def coerce (p : Parameter) (value : ParameterValue) : Except BindingError ParameterValue :=
  if value.kind = p.kind then .ok value
  else
    match p.kind, value with
    | .float, .integer i => .ok (.float (.ofInt i.toInt))
    | .filePath, .text s => .ok (.filePath s)
    | .dataPath, .text s =>
      match DataPath.parse s with
      | .ok path => .ok (.dataPath path)
      | .error cause => .error (.invalidPath p.key s cause)
    | expected, found => .error (.wrongKind p.key expected found)

/-- **Whether a value satisfies a constraint.** Values that it is not about
do. -/
def checkConstraint (p : Parameter) (value : ParameterValue) :
    Constraint → Except BindingError Unit
  | .range least greatest =>
    match value with
    | .integer _ | .float _ =>
      let x := value.float?.getD .zero
      if least.isBelow x && greatest.isAbove x then .ok ()
      else .error (.outOfRange p.key x least greatest)
    | _ => .ok ()
  | .nonEmpty =>
    match value with
    | .text s | .filePath s => if s = "" then .error (.empty p.key) else .ok ()
    | _ => .ok ()

/-- **The value of a parameter** from the arguments. It is an argument or the default, converted
and then checked. -/
def bindOne (p : Parameter) (args : Arguments) : Except BindingError ParameterValue := do
  let given ← match (args.find? p.key).or p.default? with
    | some value => pure value
    | none => throw (.missing p.key p.title)
  let value ← p.coerce given
  if let some constraint := p.constraint then p.checkConstraint value constraint
  return value

end Parameter

/-- The errors of arguments whose keys no parameter has. -/
def unknownKeys (parameters : List Parameter) (args : Arguments) : List BindingError :=
  (args.keys.filter fun key => !parameters.any (·.key == key)).map .unknown

/-- Binds one parameter after another. -/
def bindAll (args : Arguments) : List Parameter → Arguments × List BindingError →
    Arguments × List BindingError
  | [], outcome => outcome
  | p :: rest, (bound, errors) =>
    match p.bindOne args with
    | .ok value => bindAll args rest (Keyed.insert p.key value bound, errors)
    | .error e => bindAll args rest (bound, errors ++ [e])

/-- **Binds arguments to parameters**: the values that could be had, and all that is wrong. A
parameter that gets no value does not keep the others from theirs. -/
def bind (parameters : List Parameter) (args : Arguments) : Arguments × Findings :=
  let (bound, errors) := bindAll args parameters ([], unknownKeys parameters args)
  (bound, ⟨errors.map BindingError.diagnostic, []⟩)

end Meshwork
