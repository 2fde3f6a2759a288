import Meshwork.Number.Decimal

/-!
# Reading a command line

A command line is a list of words. Which of them are options, which are
values of options, and which are operands is told by a `Grammar`: the options
and operands of a program, and its commands, each with a grammar of its own.
Options may stand before or after operands; a word after `--` is an operand
whatever it looks like.

A value is not looked at when its word is met, but when the next option or
operand begins or the line ends. `Draft.pending` is the value that waits for
this, so of two mistakes the one that is reported need not be the one that
stands first.
-/

namespace Meshwork.CommandLine

/-- **Why a command line is not carried out.** -/
inductive UsageError where
  /-- It asks for help. -/
  | helpRequested
  /-- It asks for the version. -/
  | versionRequested
  /-- Nothing is given where a command is needed. -/
  | nothingGiven
  /-- There are options, but no command. -/
  | missingCommand
  /-- There is no such command. -/
  | unknownCommand
  /-- There is no such option, or there are too many operands. -/
  | unknownArgument
  /-- A required option or operand is missing. -/
  | missingArgument
  /-- A value is missing, empty where it may not be, or none of those that are
  allowed. -/
  | invalidValue
  /-- A value is no number. -/
  | malformedValue
  /-- An option is given twice. -/
  | repeatedArgument
  /-- An option that takes no value is given one. -/
  | unexpectedValue
deriving DecidableEq, Repr

namespace UsageError

/-- Whether the command line asks for a text about the program. -/
def isRequest : UsageError → Bool
  | helpRequested | versionRequested => true
  | _ => false

/-- The text of an error, or the text that is asked for. -/
def message : UsageError → String
  | helpRequested =>
    "usage: mpipe [--cwd DIR] [--debug] [-q] "
      ++ "import | run | preflight | inspect | filters | config | completion ..."
  | versionRequested => "mpipe 0.1.0"
  | nothingGiven | missingCommand => "a command is missing"
  | unknownCommand => "there is no such command"
  | unknownArgument => "there is no such argument"
  | missingArgument => "an argument is missing"
  | invalidValue => "a value is missing or not allowed"
  | malformedValue => "a value is no number"
  | repeatedArgument => "an argument is given twice"
  | unexpectedValue => "an argument takes no value"

end UsageError

/-! ## What a grammar is made of

Options have names of one letter or of several, and some have values. Whether a value is
right is told by its kind. -/

/-- **What a value must be.** -/
inductive ValueKind where
  /-- Any text. -/
  | text
  /-- The location of a file: a text that is not empty. -/
  | path
  /-- A number. -/
  | number
  /-- One of several texts. -/
  | choice (allowed : List String)
deriving DecidableEq, Repr

/-- Refuses a text that is no value of the kind. -/
def ValueKind.check (text : String) : ValueKind → Except UsageError Unit
  | .text => .ok ()
  | .path => if text = "" then .error .invalidValue else .ok ()
  | .number => if (Double.ofText? text.toList).isSome then .ok () else .error .malformedValue
  | .choice allowed => if text ∈ allowed then .ok () else .error .invalidValue

/-- **What an option does.** -/
inductive OptionRole where
  /-- It is given or not. -/
  | switch
  /-- It takes a value. -/
  | value (kind : ValueKind)
  /-- It asks for help. -/
  | help
  /-- It asks for the version. -/
  | version
deriving DecidableEq, Repr

/-- **An option.** -/
structure OptionSpec where
  /-- Its name, which stands after two dashes. -/
  name : String
  /-- The letter that may stand after a single dash instead. -/
  letter : Option Char
  /-- What it does. -/
  role : OptionRole
  /-- Whether it must be given. -/
  required : Bool
deriving DecidableEq, Repr

/-- **An operand**: a word that stands for itself. -/
structure OperandSpec where
  /-- Its name. -/
  name : String
  /-- What it must be. -/
  kind : ValueKind
  /-- Whether it must be given. -/
  required : Bool
deriving DecidableEq, Repr

/-- **What a program or a command takes.** With commands, it takes one of
them. -/
inductive Grammar where
  /-- Options, operands in order, and commands. -/
  | mk (options : List OptionSpec) (operands : List OperandSpec)
      (commands : List (String × Grammar))
deriving Inhabited

namespace Grammar

/-- The options. -/
def options : Grammar → List OptionSpec
  | mk options _ _ => options

/-- The operands. -/
def operands : Grammar → List OperandSpec
  | mk _ operands _ => operands

/-- The commands. -/
def commands : Grammar → List (String × Grammar)
  | mk _ _ commands => commands

/-- The command that tells about the others. -/
def helpCommand : String := "help"

/-- Whether a command must be given. -/
def takesCommand (g : Grammar) : Bool := !g.commands.isEmpty

/-- The grammar of a command. -/
def command? (g : Grammar) (word : String) : Option Grammar := g.commands.lookup word

/-- Whether a word is a command. -/
def isCommand (g : Grammar) (word : String) : Bool :=
  g.takesCommand && (word == helpCommand || (g.command? word).isSome)

/-- The names that must be given. -/
def required (g : Grammar) : List String :=
  ((g.options.filter (·.required)).map (·.name))
    ++ ((g.operands.filter (·.required)).map (·.name))

/-- What follows from words after the command that tells about others. -/
def helpOn : Grammar → List String → UsageError
  | _, [] => .helpRequested
  | g, word :: rest =>
    match g.command? word with
    | some inner => helpOn inner rest
    | none => if g.isCommand word && rest.isEmpty then .helpRequested else .unknownCommand

end Grammar

/-- What is given: names with their values. A switch has an empty one. -/
abbrev Given := List (String × String)

/-- A value that was not looked at yet. -/
structure Pending where
  /-- The name of its option or operand. -/
  name : String
  /-- What it must be. -/
  kind : ValueKind
  /-- Its text, once it was met. -/
  text : Option String
deriving DecidableEq, Repr

/-- **A command line that is being read.** -/
structure Draft where
  /-- What was given so far. -/
  given : Given
  /-- The value that was not looked at yet. -/
  pending : Option Pending
  /-- The operands that may still be given. -/
  operands : List OperandSpec
  /-- Whether only operands follow. -/
  onlyOperands : Bool
deriving DecidableEq, Repr

namespace Draft

/-- The draft before the first word. -/
def start (g : Grammar) : Draft := ⟨[], none, g.operands, false⟩

/-- Whether an option waits for its value. -/
def awaitsValue (d : Draft) : Bool :=
  match d.pending with
  | some ⟨_, _, none⟩ => true
  | _ => false

/-- Adds a value. -/
def add (d : Draft) (name text : String) : Except UsageError Draft :=
  if (d.given.lookup name).isSome then .error .repeatedArgument
  else .ok { d with given := d.given ++ [(name, text)] }

/-- Adds a value that must be of a kind. -/
def addValue (d : Draft) (name : String) (kind : ValueKind) (text : String) :
    Except UsageError Draft := do
  let d ← d.add name text
  kind.check text
  return d

/-- **Looks at the value that waits for it.** -/
def settle (d : Draft) : Except UsageError Draft :=
  match d.pending with
  | none => .ok d
  | some ⟨_, _, none⟩ => .error .invalidValue
  | some ⟨name, kind, some text⟩ => { d with pending := none }.addValue name kind text

/-- An option is met, perhaps with a value attached to it. -/
def option (d : Draft) (spec : OptionSpec) (attached : Option String) :
    Except UsageError Draft :=
  match spec.role, attached with
  | .value kind, some text => do (← d.settle).addValue spec.name kind text
  | .value kind, none => do
    let d ← d.settle
    return { d with pending := some ⟨spec.name, kind, none⟩ }
  | _, some _ => .error .unexpectedValue
  | .switch, none => do (← d.settle).add spec.name ""
  | .help, none => do
    let _ ← d.settle
    throw .helpRequested
  | .version, none => do
    let _ ← d.settle
    throw .versionRequested

/-- An operand is met. -/
def operand (g : Grammar) (d : Draft) (word : String) : Except UsageError Draft :=
  match d.operands with
  | [] =>
    if g.takesCommand && !(d.onlyOperands && g.isCommand word) then .error .unknownCommand
    else .error .unknownArgument
  | spec :: rest => do
    let d ← d.settle
    return { d with pending := some ⟨spec.name, spec.kind, some word⟩, operands := rest }

/-- An option after two dashes is met. A value may be attached to its name. -/
def long (g : Grammar) (d : Draft) (text : List Char) : Except UsageError Draft :=
  let name := String.ofList (text.takeWhile (· ≠ '='))
  let attached := match text.dropWhile (· ≠ '=') with
    | [] => none
    | _ :: value => some (String.ofList value)
  match g.options.find? (·.name == name) with
  | none => .error .unknownArgument
  | some spec => d.option spec attached

/-- Options after a single dash are met, each by its letter. What follows the
letter of an option with a value is that value. -/
def short (g : Grammar) : Draft → List Char → Except UsageError Draft
  | d, [] => .ok d
  | d, letter :: rest =>
    match g.options.find? (·.letter == some letter) with
    | none => .error .unknownArgument
    | some spec =>
      match spec.role, rest with
      | .value _, [] => d.option spec none
      | .value _, '=' :: value => d.option spec (some (String.ofList value))
      | .value _, value => d.option spec (some (String.ofList value))
      | _, rest => do short g (← d.option spec none) rest

/-- **A word that is no command is met.** -/
def word (g : Grammar) (d : Draft) (text : String) : Except UsageError Draft :=
  if d.onlyOperands then d.operand g text
  else
    match text.toList with
    | ['-', '-'] => .ok { d with onlyOperands := true }
    | '-' :: '-' :: rest => d.long g rest
    | '-' :: letter :: rest => d.short g (letter :: rest)
    | _ =>
      match d.pending with
      | some ⟨name, kind, none⟩ => .ok { d with pending := some ⟨name, kind, some text⟩ }
      | _ => d.operand g text

/-- What is given when the words have ended. -/
def finish (g : Grammar) (d : Draft) : Except UsageError Given := do
  let d ← d.settle
  if g.takesCommand then throw (if d.given.isEmpty then .nothingGiven else .missingCommand)
  else if g.required.all fun name => (d.given.lookup name).isSome then return d.given
  else throw .missingArgument

end Draft

/-- What is given to a command. -/
structure Level where
  /-- The name of the command. -/
  command : String
  /-- What is given to it. -/
  given : Given
deriving DecidableEq, Repr

/-- **Reads the words of a command line**: what is given to the program, to
its command, and so on. -/
def readWords (name : String) (g : Grammar) (d : Draft) :
    List String → Except UsageError (List Level)
  | [] => do return [⟨name, ← d.finish g⟩]
  | word :: rest =>
    if !d.onlyOperands && !d.awaitsValue && g.isCommand word then
      match g.command? word with
      | none => .error (g.helpOn rest)
      | some inner => do
        let levels ← readWords word inner (.start inner) rest
        let d ← d.settle
        return ⟨name, d.given⟩ :: levels
    else do readWords name g (← d.word g word) rest

end Meshwork.CommandLine
