import Meshwork.Pipeline.Basic

/-!
# Running pipelines

The enabled steps are executed one after another on the same store. A step
that reports errors leaves the store as it was; whether the run goes on then
is for the policy to say. Before each step the run asks whether it should
stop, and if so it ends there, with an error that belongs to no step. What
earlier steps have done remains in any case.

A check makes the plans instead. Each is made for the store as the planned
edits of the steps before would leave it.

A check goes on after a step with errors, whatever the policy, and reports on all steps.
It rehearses on a scratch copy, so the store itself is not touched.
-/

namespace Meshwork

/-- What was found in the steps from some position on. -/
structure Remainder where
  /-- The reports on the steps. -/
  reports : List StepReport
  /-- What was found. -/
  findings : Findings
  /-- Whether the run ended early. -/
  failed : Bool
  /-- The store that was left. -/
  store : Store

namespace Remainder

/-- Puts the report on a step in front, and what it found. -/
def after (r : Remainder) (report : StepReport) : Remainder :=
  { r with
    reports := report :: r.reports
    findings := report.findings ++ r.findings }

end Remainder

namespace Pipeline

/-- The reports on steps that are not reached. -/
def notRun (index : Nat) : List Step → List StepReport
  | [] => []
  | step :: rest => step.report index .notRun .none :: notRun (index + 1) rest

/-- A run that ends early before the given steps. -/
def ended (index : Nat) (steps : List Step) (findings : Findings) (s : Store) : Remainder :=
  ⟨notRun index steps, findings, true, s⟩

/-- The error of a run that is told to stop before a step. -/
def stoppedBefore (index : Nat) (step : Step) : Findings :=
  .ofError .cancelled s!"run cancelled before step {index} ({step.displayName})"

/-- Whether the run ends after a step with such findings. -/
def halts (policy : FailurePolicy) (findings : Findings) : Bool :=
  findings.hasErrors && policy = .haltOnError

/-- Executes a step, and tells so. -/
def executeStep (count index : Nat) (step : Step) (s : Store) : Run (Findings × Store) := do
  Run.report step.filter.name s!"step {index + 1} of {count}"
  step.filter.execute s step.arguments

/-- Runs the steps from a position on. `count` is the number of all steps. -/
def runSteps (policy : FailurePolicy) (count : Nat) :
    (index : Nat) → List Step → Store → Run Remainder
  | _, [], s => pure ⟨[], .none, false, s⟩
  | index, step :: rest, s => do
    if !step.enabled then
      return (← runSteps policy count (index + 1) rest s).after (step.report index .skipped .none)
    if ← Run.isStopped then
      return ended index (step :: rest) (stoppedBefore index step) s
    let (findings, s) ← executeStep count index step s
    let report := step.report index .executed findings
    if halts policy findings then return (ended (index + 1) rest .none s).after report
    return (← runSteps policy count (index + 1) rest s).after report

/-- **Runs a pipeline on a store.** Whether it failed is up to the loop over the steps, which may
end early. -/
def run (p : Pipeline) (s : Store) : Run (RunReport × Store) := do
  let r ← runSteps p.policy p.steps.length 0 p.steps s
  return (⟨if r.failed then .failed else .completed, r.findings, r.reports⟩, r.store)

/-- The pipeline after a run with such a report. -/
def afterRun (p : Pipeline) (report : RunReport) : Pipeline := { p with phase := report.phase }

/-- The findings of a step's plan and, if it has no errors, those of its
edits, with the store that the edits leave. -/
def checkStep (files : FileSystem) (step : Step) (s : Store) : Findings × Store :=
  let plan := step.filter.declare files s step.arguments
  if plan.findings.hasErrors then (plan.findings, s)
  else
    let (findings, s) := rehearse plan.edits s
    (plan.findings ++ findings.attributed step.filter.name, s)

/-- Checks the steps from a position on. -/
def checkSteps (files : FileSystem) : (index : Nat) → List Step → Store → List StepReport
  | _, [], _ => []
  | index, step :: rest, s =>
    if !step.enabled then step.report index .skipped .none :: checkSteps files (index + 1) rest s
    else
      let (findings, s) := checkStep files step s
      step.report index .executed findings :: checkSteps files (index + 1) rest s

/-- The findings of all steps, in order. -/
def allFindings (reports : List StepReport) : Findings :=
  reports.foldl (fun findings report => findings ++ report.findings) .none

/-- **Checks a pipeline against a store**, which stays as it is. Its steps are checked one after
another on a copy, which takes the edits that they announce. -/
def preflight (p : Pipeline) (files : FileSystem) (s : Store) : PreflightReport :=
  let reports := checkSteps files 0 p.steps s
  ⟨allFindings reports, reports⟩

end Pipeline

end Meshwork
