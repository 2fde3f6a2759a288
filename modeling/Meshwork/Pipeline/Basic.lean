import Meshwork.Filter.Basic

/-!
# Pipelines

A pipeline is a list of steps, each of them a filter with arguments. It has
a policy for steps that report errors, and remembers how its last run ended.
The reports on a run or a check have one entry for every step, whether it
was executed or not.
-/

namespace Meshwork

/-- **What follows when a step reports an error.** It is about errors only: warnings never end a
run. -/
inductive FailurePolicy where
  /-- The run ends. -/
  | haltOnError
  /-- The next step is run. -/
  | continueOnError
deriving DecidableEq, Repr

namespace FailurePolicy

/-- Every policy. -/
def all : List FailurePolicy := [haltOnError, continueOnError]

/-- The policy where none is given. -/
def standard : FailurePolicy := haltOnError

/-- The name of a policy. -/
def text : FailurePolicy → String
  | haltOnError => "halt_on_error"
  | continueOnError => "continue_on_error"

/-- The policy of a name. -/
def ofText? (text : String) : Option FailurePolicy := all.find? (·.text == text)

/-- What is said about a text that is no policy. -/
def unknownMessage (text : String) : String := s!"unknown failure policy '{text}'"

/-- A name belongs to the policy that it is the name of. -/
@[simp] theorem ofText?_text (policy : FailurePolicy) : ofText? policy.text = some policy := by
  cases policy <;> rfl

end FailurePolicy

/-- **How far a run has come.** A pipeline keeps the phase of its last run. -/
inductive RunPhase where
  /-- There was none yet. -/
  | idle
  /-- It is under way. -/
  | running
  /-- It came to its end. -/
  | completed
  /-- It ended early. -/
  | failed
deriving DecidableEq, Repr

/-- The phase in reports. -/
def RunPhase.tag : RunPhase → String
  | idle => "idle"
  | running => "running"
  | completed => "completed"
  | failed => "failed"

/-- The phase for readers. -/
def RunPhase.name : RunPhase → String
  | idle => "Idle"
  | running => "Running"
  | completed => "Completed"
  | failed => "Failed"

/-- **One step of a pipeline.** The arguments are as they were given, and are bound only when the
step is checked or run. -/
structure Step where
  /-- What is done. -/
  filter : Filter
  /-- What it is done with. -/
  arguments : Arguments
  /-- Whether it is done at all. -/
  enabled : Bool
  /-- What the step is called, if not like the filter. -/
  label : Option String

namespace Step

/-- What the step is called. -/
def displayName (s : Step) : String := s.label.getD s.filter.info.title

/-- The canonical rendering of a step. -/
def canonical (s : Step) : String :=
  "PipelineStep \x7b filter: " ++ quoted s.filter.name
    ++ ", arguments: " ++ s.arguments.canonical
    ++ ", enabled: " ++ ParameterValue.boolText s.enabled
    ++ ", label: " ++ quotedOption s.label ++ " \x7d"

end Step

/-- **A pipeline.** The steps are run in order, each on the store that the one before left. -/
structure Pipeline where
  /-- Its name. -/
  name : String
  /-- Its steps, in order. -/
  steps : List Step
  /-- What follows when a step reports an error. -/
  policy : FailurePolicy
  /-- How the last run ended. -/
  phase : RunPhase

/-- A pipeline that was not run yet. -/
def Pipeline.ofSteps (name : String) (policy : FailurePolicy) (steps : List Step) : Pipeline :=
  ⟨name, steps, policy, .idle⟩

/-! ## Reports

Reports are values, from which both lines for people and JSON for programs are made.
Findings of steps are kept with the steps and gathered in the report on the whole. -/

/-- **What became of a step.** -/
inductive StepStatus where
  /-- It was executed, or checked. -/
  | executed
  /-- It is disabled. -/
  | skipped
  /-- The run ended before it. -/
  | notRun
deriving DecidableEq, Repr

/-- The status in reports. -/
def StepStatus.tag : StepStatus → String
  | executed => "executed"
  | skipped => "skipped"
  | notRun => "not_run"

/-- **The report on a step.** It has all that is told about the step, so that a report can be read
without the pipeline. -/
structure StepReport where
  /-- Its position. -/
  index : Nat
  /-- The name of its filter. -/
  filter : String
  /-- What the step is called. -/
  label : String
  /-- What became of it. -/
  status : StepStatus
  /-- What was found. -/
  findings : Findings
deriving DecidableEq, Repr

/-- The report on a step at a position. -/
def Step.report (s : Step) (index : Nat) (status : StepStatus) (findings : Findings) : StepReport :=
  ⟨index, s.filter.name, s.displayName, status, findings⟩

/-- The report in JSON. -/
def StepReport.json (r : StepReport) : Json.Value :=
  .object [("index", .nat r.index), ("filter", .string r.filter), ("label", .string r.label),
    ("status", .string r.status.tag), ("result", r.findings.json)]

/-- **The report on a run.** There is a report for every step, also for those that were not run. -/
structure RunReport where
  /-- How it ended. -/
  phase : RunPhase
  /-- What was found, step after step. -/
  findings : Findings
  /-- The reports on the steps. -/
  steps : List StepReport
deriving DecidableEq, Repr

namespace RunReport

/-- Whether the run came to its end without an error. -/
def succeeded (r : RunReport) : Bool := r.phase = .completed && !r.findings.hasErrors

/-- The report in JSON. -/
def json (r : RunReport) : Json.Value :=
  .object [("state", .string r.phase.tag), ("result", r.findings.json),
    ("steps", .array (r.steps.map StepReport.json))]

end RunReport

/-- **The report on a check.** It has the form of a report on a run, but for a phase, since
nothing was run. -/
structure PreflightReport where
  /-- What was found, step after step. -/
  findings : Findings
  /-- The reports on the steps. -/
  steps : List StepReport
deriving DecidableEq, Repr

namespace PreflightReport

/-- Whether no error was found. -/
def isValid (r : PreflightReport) : Bool := !r.findings.hasErrors

/-- The report in JSON. -/
def json (r : PreflightReport) : Json.Value :=
  .object [("result", r.findings.json), ("steps", .array (r.steps.map StepReport.json))]

end PreflightReport

end Meshwork
