import Meshwork.Command.Task
import Meshwork.Pipeline.Run

/-!
# Reports on the console

Findings and reports as lines. Where little is to be told, only errors
remain.
-/

namespace Meshwork

/-- A text with blanks behind it up to a width. -/
def padRight (width : Nat) (text : String) : String :=
  text ++ String.ofList (List.replicate (width - text.length) ' ')

/-- A text with blanks in front of it up to a width. -/
def padLeft (width : Nat) (text : String) : String :=
  String.ofList (List.replicate (width - text.length) ' ') ++ text

/-- Findings as lines, each behind a margin. -/
def Findings.lines (f : Findings) (margin : String) (quiet : Bool) : List String :=
  f.errors.map (fun d => margin ++ "error   " ++ d.text)
    ++ if quiet then [] else f.warnings.map fun d => margin ++ "warning " ++ d.text

/-- What became of a step, in a word. -/
def StepReport.verdict (r : StepReport) : String :=
  match r.status with
  | .executed => if r.findings.hasErrors then "failed" else "ok"
  | .skipped => "skipped"
  | .notRun => "not run"

/-- The report on a step as lines. -/
def StepReport.lines (r : StepReport) (quiet : Bool) : List String :=
  let number := padLeft 2 (toString (r.index + 1))
  let verdict := padRight 8 r.verdict
  let title := s!"  {number}. {verdict} {r.label} ({r.filter})"
  (if quiet then [] else [title]) ++ r.findings.lines "      " quiet

/-- The line above a report. -/
def reportTitle (name : String) (quiet : Bool) : List String :=
  if quiet then [] else [s!"Pipeline '{name}'"]

/-- The errors of a run that belong to no step: those after the errors of all
steps. -/
def RunReport.ownErrors (r : RunReport) : List Diagnostic :=
  r.findings.errors.drop (r.steps.flatMap fun step => step.findings.errors).length

/-- **The report on a run** as lines. -/
def RunReport.lines (r : RunReport) (name : String) (quiet : Bool) : List String :=
  reportTitle name quiet
    ++ r.steps.flatMap (·.lines quiet)
    ++ r.ownErrors.map (fun d => "error   " ++ d.text)
    ++ if quiet then [] else [s!"{r.phase.name}: {r.findings.summary}"]

/-- **The report on a check** as lines. -/
def PreflightReport.lines (r : PreflightReport) (name : String) (quiet : Bool) : List String :=
  let verdict := if r.isValid then "valid" else "invalid"
  reportTitle name quiet
    ++ r.steps.flatMap (·.lines quiet)
    ++ if quiet then [] else [s!"{verdict}: {r.findings.summary}"]

end Meshwork
