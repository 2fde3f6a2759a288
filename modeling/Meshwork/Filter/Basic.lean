import Meshwork.Edit.Outlook
import Meshwork.Filter.Context
import Meshwork.Parameter.Binding
import Meshwork.Uuid

/-!
# Filters

A filter is one step of data processing: what it is called, which parameters
it has, what it will do to a store (`plan`) and how it does it (`perform`).
It keeps nothing between two uses.

All filters go through the same stages. Arguments are bound to the
parameters; the plan is made and its edits are checked against the store;
the work is done, which gives the edits that are really to be made; and
these are committed. An error at any stage ends the execution, and the store
is changed in the last stage only.

A plan and work are functions, so a filter is any pair of these. Nothing forces the work
to do what the plan announces; what the stages guarantee, they guarantee of all filters.
-/

namespace Meshwork

/-- **What a filter is called.** Name and identifier are what a registry finds it by. -/
structure FilterInfo where
  /-- The name in pipeline files. -/
  name : String
  /-- The identifier in saved pipelines. -/
  uuid : Uuid
  /-- The name for readers. -/
  title : String
  /-- Words by which it may be found. -/
  tags : List String
  /-- Its version. -/
  version : Nat
deriving DecidableEq

/-- The description in JSON. -/
def FilterInfo.json (info : FilterInfo) : Json.Value :=
  .object [("name", .string info.name), ("uuid", .string info.uuid.text),
    ("human_name", .string info.title), ("tags", .array (info.tags.map .string)),
    ("version", .nat info.version)]

/-- **What a filter intends**: findings, and the edits that it will make. It is made without doing
the work, from the arguments and what lies in the store. -/
structure Plan where
  /-- What was found. -/
  findings : Findings
  /-- The edits; objects may be stand-ins without data. -/
  edits : List Edit

/-- A plan that comes to nothing. -/
def Plan.failed (findings : Findings) : Plan := ⟨findings, []⟩

/-- **What a filter has done**: findings, and the edits to be made. The edits are made by whoever
executes the filter, after the work is done. -/
structure Outcome where
  /-- What was found. -/
  findings : Findings
  /-- The edits. -/
  edits : List Edit

/-- Work that ended early. -/
def Outcome.failed (findings : Findings) : Outcome := ⟨findings, []⟩

/-- **A filter.** All filters share the stages around these two functions, so those are written
once. -/
structure Filter where
  /-- What it is called. -/
  info : FilterInfo
  /-- Its parameters. -/
  parameters : List Parameter
  /-- What it will do with bound arguments. It may look at files. -/
  plan : FileSystem → Store → Arguments → Plan
  /-- Does the work, for the same arguments. -/
  perform : Store → Arguments → Run Outcome

namespace Filter

/-- The name of the filter. -/
def name (f : Filter) : String := f.info.name

/-- Binds arguments and makes the plan. The findings name the filter. -/
def prepare (f : Filter) (files : FileSystem) (s : Store) (args : Arguments) : Arguments × Plan :=
  let (bound, findings) := bind f.parameters args
  if findings.hasErrors then (bound, .failed (findings.attributed f.name))
  else
    let plan := f.plan files s bound
    (bound, ⟨(findings ++ plan.findings).attributed f.name, plan.edits⟩)

/-- **The plan for given arguments.** Arguments that cannot be bound have a plan without edits. -/
def declare (f : Filter) (files : FileSystem) (s : Store) (args : Arguments) : Plan :=
  (f.prepare files s args).2

/-- The findings of a plan and, if it has no errors, those of its edits. -/
def checkPlan (f : Filter) (s : Store) (plan : Plan) : Findings :=
  if plan.findings.hasErrors then plan.findings
  else plan.findings ++ (checkEdits s plan.edits).attributed f.name

/-- **What can be found out beforehand.** It asks for the arguments, the plan and the edits in it,
and changes nothing. -/
def preflight (f : Filter) (files : FileSystem) (s : Store) (args : Arguments) : Findings :=
  f.checkPlan s (f.declare files s args)

/-- The findings of an execution that was told to stop before it began. -/
def stoppedFindings (f : Filter) : Findings :=
  (Findings.ofError .cancelled "execution cancelled").attributed f.name

/-- Commits the edits of work that went well. -/
def conclude (f : Filter) (s : Store) (findings : Findings) (edits : List Edit) :
    Findings × Store :=
  match commit edits s with
  | (.ok _, s) => (findings, s)
  | (.error e, s) =>
    let failure := Findings.ofError .internal s!"could not apply staged changes: {e.message}"
    ((findings ++ failure).attributed f.name, s)

/-- **Executes the filter** on a store. The store changes at the very end if at all, when nothing
that was found is an error. -/
def execute (f : Filter) (s : Store) (args : Arguments) : Run (Findings × Store) := do
  if ← Run.isStopped then return (f.stoppedFindings, s)
  let (bound, plan) := f.prepare (← Run.files) s args
  let findings := f.checkPlan s plan
  if findings.hasErrors then return (findings, s)
  let outcome ← f.perform s bound
  let findings := findings ++ outcome.findings.attributed f.name
  if findings.hasErrors then return (findings, s)
  return f.conclude s findings outcome.edits

end Filter

end Meshwork
