import Meshwork.Filter.Structure
import Meshwork.Proofs.Pipeline.Course

/-!
# Runs that are asked to stop

Two questions stand before the work of a step: the run asks whether to stop, reports
its progress, and the filter asks once more. The answer may change in between, and
then the step is refused by its filter, as one that was executed and found an error.

A step that the run refuses ends the run, and so the run fails. A step that its filter
refuses is treated like any step with an error: the policy decides, and if the run goes
on, it is the next enabled step that the run refuses. Hence a run can come to its end
although a step was refused, but only if that was the last enabled one
(`Pipeline.failed_iff_of_refused`).
-/

namespace Meshwork.Pipeline

variable {p : Pipeline} {policy : FailurePolicy} {count index : Nat} {context : RunContext}
  {step : Step} {steps later : List Step} {s t : Store} {state told : RunState}

/-! ## Where a run comes to

A run that has not ended is at some step, with a store and a state. Whatever it does from
there decides how it ends, so statements about a later step start from where the run has
come to. -/

/-- **Where a run comes to**: so many steps are behind it, these steps are before it, and
this is the store and the state of the run. -/
inductive Reaches (p : Pipeline) (s : Store) (context : RunContext) (state : RunState) :
    Nat → List Step → Store → RunState → Prop where
  /-- It starts before the first step. -/
  | start : Reaches p s context state 0 p.steps s state
  /-- It passes over a disabled step. -/
  | skipped {index : Nat} {step : Step} {later : List Step} {t : Store} {told : RunState}
      (hreach : Reaches p s context state index (step :: later) t told)
      (henabled : step.enabled = false) :
    Reaches p s context state (index + 1) later t told
  /-- It executes a step and goes on. -/
  | executed {index : Nat} {step : Step} {later : List Step} {t t' : Store}
      {told told' : RunState} {findings : Findings}
      (hreach : Reaches p s context state index (step :: later) t told)
      (henabled : step.enabled = true) (hrunning : (Run.isStopped context told).1 = false)
      (hexecuted : executeStep p.steps.length index step t context (Run.isStopped context told).2
        = ((findings, t'), told'))
      (hgoes : halts p.policy findings = false) :
    Reaches p s context state (index + 1) later t' told'

/-! ## Who refuses a step

The run asks before a step begins and ends if told to stop. The filter asks at its entry
and answers with an error, which is then handled like the errors of any filter. -/

/-- Who refuses a step. -/
inductive Refuser where
  /-- The run, before it executes the step. -/
  | run
  /-- The filter, when it is executed. -/
  | filter
deriving DecidableEq

/-- The state in which a filter is executed: the run has asked whether to stop and
reported its progress. -/
def stateOnEntry (count index : Nat) (step : Step) (context : RunContext) (told : RunState) :
    RunState :=
  (Run.report step.filter.name s!"step {index + 1} of {count}" context
    (Run.isStopped context told).2).2

/-- **An enabled step is refused** because the answer to the question whether to stop is yes;
`later` are the steps after it. Who refuses it makes a difference: the run itself then ends, while
for a filter the policy decides. -/
inductive Refused (p : Pipeline) (s : Store) (context : RunContext) (state : RunState)
    (later : List Step) : Refuser → Prop where
  /-- The run asks before the step. -/
  | byRun {index : Nat} {step : Step} {t : Store} {told : RunState}
      (hreach : Reaches p s context state index (step :: later) t told)
      (henabled : step.enabled = true) (hstop : (Run.isStopped context told).1 = true) :
    Refused p s context state later .run
  /-- The filter asks on entry. -/
  | byFilter {index : Nat} {step : Step} {t : Store} {told : RunState}
      (hreach : Reaches p s context state index (step :: later) t told)
      (henabled : step.enabled = true) (hrunning : (Run.isStopped context told).1 = false)
      (hstop : (Run.isStopped context
        (stateOnEntry p.steps.length index step context told)).1 = true) :
    Refused p s context state later .filter

/-- **Whether a run fails** is settled by how it goes on from where it has come to. The steps
before add findings to the report, but none of them ended the run. -/
theorem Reaches.failed_eq (h : Reaches p s context state index steps t told) :
    (runSteps p.policy p.steps.length 0 p.steps s context state).1.failed
      = (runSteps p.policy p.steps.length index steps t context told).1.failed := by
  induction h with
  | start => rfl
  | skipped _ henabled ih =>
    rw [ih, runSteps_disabled henabled]
    rfl
  | executed _ henabled hrunning hexecuted hgoes ih =>
    rw [ih, runSteps_enabled henabled hrunning (by rw [hexecuted]; exact hgoes), hexecuted]
    rfl

/-- **A run that was told to stop** fails at the next enabled step. Being told to stop is never
taken back, so every later question is answered with yes. -/
theorem failed_of_told (htold : told.stopped = true) (policy : FailurePolicy) (count index : Nat)
    (steps : List Step) (s : Store) (context : RunContext) :
    (runSteps policy count index steps s context told).1.failed = steps.any (·.enabled) := by
  induction steps generalizing index with
  | nil => rfl
  | cons step rest ih =>
    rw [List.any_cons]
    cases henabled : step.enabled with
    | false =>
      rw [runSteps_disabled henabled, Bool.false_or]
      exact ih (index + 1)
    | true =>
      have hstop : (Run.isStopped context told).1 = true := by
        rw [Run.isStopped]
        dsimp only
        rw [htold, Bool.true_or]
      rw [runSteps_stopped henabled hstop]
      rfl

/-- **A filter that is told to stop on entry** finds nothing else and does nothing. It is the
second question at this step; the first was that of the run, which was answered with no. -/
theorem executeStep_of_refused (s : Store)
    (hstop : (Run.isStopped context (stateOnEntry count index step context told)).1 = true) :
    executeStep count index step s context (Run.isStopped context told).2
      = ((step.filter.stoppedFindings, s),
        (Run.isStopped context (stateOnEntry count index step context told)).2) := by
  rw [executeStep, Run.bind_apply]
  exact step.filter.execute_of_stopped s step.arguments hstop

/-- **When a run fails in which a step is refused.** It does if the run refuses the step,
and also if the filter does, unless errors do not end the run and no enabled step comes
after. -/
theorem failed_iff_of_refused {refuser : Refuser} (h : p.Refused s context state later refuser) :
    (p.run s context state).1.1.phase = .failed
      ↔ refuser = .run ∨ p.policy = .haltOnError ∨ ∃ other ∈ later, other.enabled = true := by
  have hphase : (p.run s context state).1.1.phase = .failed
      ↔ (runSteps p.policy p.steps.length 0 p.steps s context state).1.failed = true := by
    show (if (runSteps p.policy p.steps.length 0 p.steps s context state).1.failed
      then RunPhase.failed else .completed) = .failed ↔ _
    cases (runSteps p.policy p.steps.length 0 p.steps s context state).1.failed <;> simp
  rw [hphase]
  cases h with
  | byRun hreach henabled hstop =>
    rw [hreach.failed_eq, runSteps_stopped henabled hstop]
    exact iff_of_true rfl (Or.inl rfl)
  -- The filter was told to stop. The run goes on only if errors do not end it, and then it fails at
  -- the next enabled step, which asks again.
  | @byFilter index step t told hreach henabled hrunning hstop =>
    have hexecuted := executeStep_of_refused t hstop
    have herrors : step.filter.stoppedFindings.hasErrors = true := rfl
    rw [hreach.failed_eq]
    cases hhalts : halts p.policy step.filter.stoppedFindings with
    | true =>
      rw [runSteps_halted henabled hrunning (by rw [hexecuted]; exact hhalts)]
      exact iff_of_true rfl (Or.inr (Or.inl (halts_iff.1 hhalts).1))
    | false =>
      have htold : (Run.isStopped context
          (stateOnEntry p.steps.length index step context told)).2.stopped = true := hstop
      have hpolicy : p.policy ≠ .haltOnError := fun hpolicy =>
        absurd (hhalts.symm.trans (halts_iff.2 ⟨hpolicy, herrors⟩)) Bool.false_ne_true
      rw [runSteps_enabled henabled hrunning (by rw [hexecuted]; exact hhalts), hexecuted]
      show (runSteps p.policy _ _ _ _ _ _).1.failed = true ↔ _
      rw [failed_of_told htold, List.any_eq_true]
      simp [hpolicy]

/-- The only step of a pipeline is refused by its filter, since somebody asks the run to
stop when it reports its progress. Errors do not end this run, and it comes to its
end. -/
theorem completed_refused_last :
    let context : RunContext := ⟨⟨0, 0⟩, fun moment => decide (0 < moment.reports)⟩
    let p := Pipeline.ofSteps "late" .continueOnError
      [⟨Filter.createGroup, [("data_path", .text "A")], true, none⟩]
    let report := (p.run (Store.after []) context (RunState.start ⟨[], []⟩)).1.1
    p.Refused (Store.after []) context (RunState.start ⟨[], []⟩) [] .filter
      ∧ report.phase ≠ .failed ∧ report.steps.map StepReport.status = [.executed]
      ∧ report.findings.errors.map Diagnostic.code = [.cancelled] := by
  intro context p report
  have hrefused : p.Refused (Store.after []) context (RunState.start ⟨[], []⟩) [] .filter :=
    .byFilter .start rfl rfl rfl
  refine ⟨hrefused, fun hfailed => ?_, rfl, rfl⟩
  rcases (failed_iff_of_refused hrefused).1 hfailed with h | h | ⟨other, hmem, -⟩
  · cases h
  · cases h
  · cases hmem

end Meshwork.Pipeline
