import Meshwork.Command.Report
import Meshwork.Proofs.Pipeline.Simulation

/-!
# The course of a run

A run goes through the steps of a pipeline until none is left, until it is asked to
stop, or until a step reports an error and the policy is to end there.
`Pipeline.Course` lists what can happen at a step, whatever the filters do and
whenever the answer to the question whether to stop becomes yes. What the report
tells of the run follows from it by induction (`Pipeline.account_run`).

What a run leaves is compared with `Pipeline.executeEach`, which executes given steps
and knows neither a policy nor how to end early. It asks the question before each
step as well, since asking is a moment of its own, at which the answer may change, and
it keeps the answers. So the comparison tells at which steps the run was not asked to
stop, and the state in which it leaves the run tells whether it is asked to stop next.
A run that stops without being asked to, or goes on although it is, has no such account.
-/

namespace Meshwork.Pipeline

variable {policy : FailurePolicy} {count index : Nat} {context : RunContext}
  {step : Step} {steps rest : List Step} {s : Store} {state : RunState} {r : Remainder}

/-- **How a run may go** from a position on, and what it comes to. Each case is one way for the
next step to go, with the course of the rest where the run goes on. -/
inductive Course (policy : FailurePolicy) (count : Nat) (context : RunContext) :
    Nat → List Step → Store → RunState → Remainder → Prop where
  /-- There is no step left. -/
  | done {index : Nat} {s : Store} {state : RunState} :
    Course policy count context index [] s state ⟨[], .none, false, s⟩
  /-- A disabled step is passed over. -/
  | skipped {index : Nat} {step : Step} {rest : List Step} {s : Store} {state : RunState}
      {r : Remainder} (henabled : step.enabled = false)
      (hrest : Course policy count context (index + 1) rest s state r) :
    Course policy count context index (step :: rest) s state
      (r.after (step.report index .skipped .none))
  /-- The run is asked to stop before a step. -/
  | stopped {index : Nat} {step : Step} {rest : List Step} {s : Store} {state : RunState}
      (henabled : step.enabled = true) (hstop : (Run.isStopped context state).1 = true) :
    Course policy count context index (step :: rest) s state
      (ended index (step :: rest) (stoppedBefore index step) s)
  /-- A step is executed and ends the run. -/
  | halted {index : Nat} {step : Step} {rest : List Step} {s s' : Store}
      {state state' : RunState} {findings : Findings} (henabled : step.enabled = true)
      (hrunning : (Run.isStopped context state).1 = false)
      (hexecuted : executeStep count index step s context (Run.isStopped context state).2
        = ((findings, s'), state'))
      (hhalts : halts policy findings = true) :
    Course policy count context index (step :: rest) s state
      ((ended (index + 1) rest .none s').after (step.report index .executed findings))
  /-- A step is executed and the run goes on. -/
  | executed {index : Nat} {step : Step} {rest : List Step} {s s' : Store}
      {state state' : RunState} {findings : Findings} {r : Remainder}
      (henabled : step.enabled = true) (hrunning : (Run.isStopped context state).1 = false)
      (hexecuted : executeStep count index step s context (Run.isStopped context state).2
        = ((findings, s'), state'))
      (hgoes : halts policy findings = false)
      (hrest : Course policy count context (index + 1) rest s' state' r) :
    Course policy count context index (step :: rest) s state
      (r.after (step.report index .executed findings))

theorem runSteps_stopped (henabled : step.enabled = true)
    (hstop : (Run.isStopped context state).1 = true) :
    (runSteps policy count index (step :: rest) s context state).1
      = ended index (step :: rest) (stoppedBefore index step) s := by
  rw [runSteps, henabled]
  simp only [Run.bind_apply, Run.ite_apply, hstop]
  rfl

theorem runSteps_halted (henabled : step.enabled = true)
    (hrunning : (Run.isStopped context state).1 = false) :
    let executed := executeStep count index step s context (Run.isStopped context state).2
    halts policy executed.1.1 = true →
      (runSteps policy count index (step :: rest) s context state).1
        = (ended (index + 1) rest .none executed.1.2).after
            (step.report index .executed executed.1.1) := by
  intro executed hhalts
  rw [runSteps, henabled]
  simp only [Run.bind_apply, Run.ite_apply, hrunning]
  show (if halts policy executed.1.1 = true then _ else _ : Remainder × RunState).1 = _
  rw [if_pos hhalts]
  rfl

/-- **Every run takes one of these courses.** By induction on the steps, one case for each branch
of the loop. -/
theorem course_runSteps (policy : FailurePolicy) (count index : Nat) (steps : List Step)
    (s : Store) (context : RunContext) (state : RunState) :
    Course policy count context index steps s state
      (runSteps policy count index steps s context state).1 := by
  -- The cases are the branches of the loop: disabled, stopped at the check, ended by its errors,
  -- executed and gone on from.
  induction steps generalizing index s state with
  | nil => exact .done
  | cons step rest ih =>
    cases henabled : step.enabled with
    | false =>
      rw [runSteps_disabled henabled, reached, henabled]
      exact .skipped henabled (ih (index + 1) s state)
    | true =>
      cases hstop : (Run.isStopped context state).1 with
      | true =>
        rw [runSteps_stopped henabled hstop]
        exact .stopped henabled hstop
      | false =>
        let executed := executeStep count index step s context (Run.isStopped context state).2
        cases hhalts : halts policy executed.1.1 with
        | true =>
          rw [runSteps_halted henabled hstop hhalts]
          exact .halted henabled hstop rfl hhalts
        | false =>
          rw [runSteps_enabled henabled hstop hhalts, reached, henabled]
          exact .executed henabled hstop rfl hhalts (ih (index + 1) _ _)

/-! ## Executing given steps

This is the reference that a run is compared with. It is given the steps that are to be
executed, and does nothing but execute them, each on the store that the one before has
left. -/

/-- What there is to tell of the execution of a step. -/
structure Turn where
  /-- The answer to the question whether to stop, asked before the step. -/
  stop : Bool
  /-- What the step found. -/
  findings : Findings

/-- **Executes steps one after another**, each with its position, and each after the
question whether to stop. The answer is kept, and nothing depends on it. -/
def executeEach (count : Nat) : List (Step × Nat) → Store → Run (List Turn × Store)
  | [], s => pure ([], s)
  | (step, index) :: rest, s => do
    let stop ← Run.isStopped
    let (findings, s) ← executeStep count index step s
    let (others, s) ← executeEach count rest s
    return (⟨stop, findings⟩ :: others, s)

theorem executeEach_cons {places : List (Step × Nat)} {s' : Store} {state' : RunState}
    {findings : Findings}
    (hexecuted : executeStep count index step s context (Run.isStopped context state).2
      = ((findings, s'), state')) :
    executeEach count ((step, index) :: places) s context state
      = let others := executeEach count places s' context state'
        ((⟨(Run.isStopped context state).1, findings⟩ :: others.1.1, others.1.2), others.2) := by
  rw [executeEach, Run.bind_apply, Run.bind_apply, hexecuted]
  rfl

/-- The steps that were executed, by the reports on them: those whose report says so, with
their positions. -/
def executedAmong (places : List (Step × Nat)) (reports : List StepReport) : List (Step × Nat) :=
  ((places.zip reports).filter fun pair => pair.2.status = .executed).map Prod.fst

/-- What there is to tell of the steps that were executed, by the reports on them. The run
was not asked to stop before any of them, or it would not have executed it. -/
def turnsAmong (reports : List StepReport) : List Turn :=
  (reports.filter fun report => report.status = .executed).map fun report =>
    ⟨false, report.findings⟩

/-! ## Steps that are not reached

Where a run ends, the reports on all steps behind are made up in one go. They say what the
step is and nothing else. -/

theorem mem_notRun {report : StepReport} (h : report ∈ notRun index steps) :
    report.status = .notRun ∧ report.findings = .none := by
  induction steps generalizing index with
  | nil => cases h
  | cons step rest ih =>
    rcases List.mem_cons.1 h with rfl | h
    · exact ⟨rfl, rfl⟩
    · exact ih h

theorem le_index_of_mem_notRun {report : StepReport} (h : report ∈ notRun index steps) :
    index ≤ report.index := by
  induction steps generalizing index with
  | nil => cases h
  | cons step rest ih =>
    rcases List.mem_cons.1 h with rfl | h
    · exact le_rfl
    · exact Nat.le_of_succ_le (ih h)

/-- What a report says of its step, but for what became of it. -/
def heading (report : StepReport) : Nat × String × String :=
  (report.index, report.filter, report.label)

/-- The heading of the report on a step at a position. -/
def headingOf (place : Step × Nat) : Nat × String × String :=
  (place.2, place.1.filter.name, place.1.displayName)

theorem map_heading_notRun (index : Nat) (steps : List Step) :
    (notRun index steps).map heading = (steps.zipIdx index).map headingOf := by
  induction steps generalizing index with
  | nil => rfl
  | cons step rest ih =>
    rw [notRun, List.map_cons, ih, List.zipIdx_cons, List.map_cons]
    rfl

theorem map_status_notRun (index : Nat) (steps : List Step) :
    (notRun index steps).map StepReport.status = steps.map fun _ => .notRun := by
  induction steps generalizing index with
  | nil => rfl
  | cons step rest ih =>
    rw [notRun, List.map_cons, ih]
    rfl

theorem executedAmong_notRun (places : List (Step × Nat)) (index : Nat) (steps : List Step) :
    executedAmong places (notRun index steps) = [] := by
  rw [executedAmong, List.map_eq_nil_iff, List.filter_eq_nil_iff]
  rintro ⟨place, report⟩ hmem
  rw [(mem_notRun (List.of_mem_zip hmem).2).1]
  decide

theorem turnsAmong_notRun (index : Nat) (steps : List Step) :
    turnsAmong (notRun index steps) = [] := by
  rw [turnsAmong, List.map_eq_nil_iff, List.filter_eq_nil_iff]
  intro report hmem
  rw [(mem_notRun hmem).1]
  decide

/-- Of a step and those that are not reached after it, the step alone was executed. -/
theorem executedAmong_halted (findings : Findings) (s : Store) :
    executedAmong ((step :: rest).zipIdx index)
        ((ended (index + 1) rest .none s).after (step.report index .executed findings)).reports
      = [(step, index)] := by
  show (step, index) :: executedAmong (rest.zipIdx (index + 1)) (notRun (index + 1) rest) = _
  rw [executedAmong_notRun]

/-! ## What a course comes to

Each fact about a run is an induction over its course. The steps are reached in order, a
step that ends the run is the last one reached, and the findings of the run are those of
its steps with at most one error behind. -/

/-- **What a run finds and how it ends**, by the reports on its steps: `own` are the
errors that belong to no step, and `told` is the state of the run after the last step
that was executed. -/
structure Concluded (policy : FailurePolicy) (context : RunContext) (places : List (Step × Nat))
    (told : RunState) (own : List Diagnostic) (r : Remainder) : Prop where
  /-- The errors of the steps come first. -/
  errors : r.findings.errors = (r.reports.flatMap fun report => report.findings.errors) ++ own
  /-- All warnings are those of the steps. -/
  warnings : r.findings.warnings = r.reports.flatMap fun report => report.findings.warnings
  /-- The run ends early for an error of its own or of a step. -/
  failed_iff : r.failed = true
    ↔ own ≠ [] ∨ ∃ report ∈ r.reports, halts policy report.findings = true
  /-- An error of its own says which step was not begun: the first that was not run. -/
  own_cases : own = [] ∨ ∃ step index, (step, index) ∈ places ∧ step.enabled = true
    ∧ step.report index .notRun .none ∈ r.reports
    ∧ (∀ report ∈ r.reports, report.status = .notRun → index ≤ report.index)
    ∧ own = (stoppedBefore index step).errors
  /-- Only a run that ends early leaves steps that were not run. -/
  left : ∀ report ∈ r.reports, report.status = .notRun → r.failed = true
  /-- There is an error of its own if steps were left for no error of a step. Then the
  run was asked to stop after the last step that was executed. -/
  own_iff : own ≠ [] ↔ (∃ report ∈ r.reports, report.status = .notRun)
    ∧ (∀ report ∈ r.reports, halts policy report.findings = false)
    ∧ (Run.isStopped context told).1 = true

/-- A step that does not end the run comes before the others. -/
theorem Concluded.after {places : List (Step × Nat)} {told : RunState} {own : List Diagnostic}
    (h : Concluded policy context places told own r) (place : Step × Nat) (report : StepReport)
    (hreached : report.status ≠ .notRun) (hgoes : halts policy report.findings = false) :
    Concluded policy context (place :: places) told own (r.after report) where
  errors := by
    show report.findings.errors ++ r.findings.errors = _
    rw [h.errors, ← List.append_assoc]
    rfl
  warnings := by
    show report.findings.warnings ++ r.findings.warnings = _
    rw [h.warnings]
    rfl
  failed_iff := by
    show r.failed = true ↔
      own ≠ [] ∨ ∃ other ∈ report :: r.reports, halts policy other.findings = true
    simp [h.failed_iff, hgoes]
  -- The step was reached, so it is not the first one left: that one lies behind it.
  own_cases := h.own_cases.imp_right fun ⟨step, index, hmem, henabled, hreport, hfirst, hown⟩ =>
    ⟨step, index, List.mem_cons_of_mem _ hmem, henabled, List.mem_cons_of_mem _ hreport,
      List.forall_mem_cons.2 ⟨fun hstatus => absurd hstatus hreached, hfirst⟩, hown⟩
  left := List.forall_mem_cons.2 ⟨fun hstatus => absurd hstatus hreached, h.left⟩
  own_iff := by
    show own ≠ [] ↔ (∃ other ∈ report :: r.reports, other.status = .notRun)
      ∧ (∀ other ∈ report :: r.reports, halts policy other.findings = false) ∧ _
    rw [h.own_iff, List.exists_mem_cons_iff, List.forall_mem_cons]
    simp only [hreached, false_or, hgoes, true_and]

/-- Nothing is found at steps that are not reached. -/
theorem flatMap_notRun {α : Type} (part : Findings → List α) (hnone : part .none = []) :
    ((notRun index steps).flatMap fun report => part report.findings) = [] :=
  List.flatMap_eq_nil_iff.2 fun report hmem => by rw [(mem_notRun hmem).2, hnone]

namespace Course

/-- **There is one report for every step**, in order. This includes the steps that were never
reached, which are reported as not run. -/
theorem headings (h : Course policy count context index steps s state r) :
    r.reports.map heading = (steps.zipIdx index).map headingOf := by
  induction h with
  | done => rfl
  | skipped _ _ ih | executed _ _ _ _ _ ih =>
    rw [Remainder.after, List.map_cons, ih, List.zipIdx_cons, List.map_cons]
    rfl
  | stopped => exact map_heading_notRun _ _
  | halted =>
    rw [Remainder.after, List.map_cons, ended, map_heading_notRun, List.zipIdx_cons, List.map_cons]
    rfl

/-- **The steps that are reached come first.** Where the first of the two lists ends, the run
ended, or the steps did. -/
theorem statuses (h : Course policy count context index steps s state r) :
    ∃ done rest, steps = done ++ rest
      ∧ r.reports.map StepReport.status = done.map reached ++ rest.map fun _ => .notRun := by
  -- A step that does not end the run joins those reached; where the run ends, everything from there
  -- on is left.
  induction h with
  | done => exact ⟨[], [], rfl, rfl⟩
  | @skipped _ step _ _ _ _ henabled _ ih =>
    obtain ⟨done, rest, rfl, hstatus⟩ := ih
    refine ⟨step :: done, rest, rfl, ?_⟩
    rw [Remainder.after, List.map_cons, hstatus, List.map_cons, reached, henabled]
    rfl
  | stopped => exact ⟨[], _, rfl, map_status_notRun _ _⟩
  | @halted _ step rest _ _ _ _ _ henabled =>
    refine ⟨[step], rest, rfl, ?_⟩
    rw [Remainder.after, List.map_cons, ended, map_status_notRun, List.map_singleton, reached,
      henabled]
    rfl
  | @executed _ step _ _ _ _ _ _ _ henabled _ _ _ _ ih =>
    obtain ⟨done, rest, rfl, hstatus⟩ := ih
    refine ⟨step :: done, rest, rfl, ?_⟩
    rw [Remainder.after, List.map_cons, hstatus, List.map_cons, reached, henabled]
    rfl

/-- Nothing is found at a step that was not executed. -/
theorem silent (h : Course policy count context index steps s state r) :
    ∀ report ∈ r.reports, report.status ≠ .executed → report.findings = .none := by
  induction h with
  | done => exact List.forall_mem_nil _
  | skipped _ _ ih => exact List.forall_mem_cons.2 ⟨fun _ => rfl, ih⟩
  | stopped => exact fun report hmem _ => (mem_notRun hmem).2
  | halted =>
    exact List.forall_mem_cons.2 ⟨fun hstatus => absurd rfl hstatus,
      fun report hmem _ => (mem_notRun hmem).2⟩
  | executed _ _ _ _ _ ih =>
    exact List.forall_mem_cons.2 ⟨fun hstatus => absurd rfl hstatus, ih⟩

/-- **No step is reached after one that ended the run.** What ends a run depends on the policy and
on the findings of one step. -/
theorem pairwise (h : Course policy count context index steps s state r) :
    r.reports.Pairwise fun report later =>
      halts policy report.findings = true → later.status = .notRun := by
  have hnotRun : ∀ {index steps}, (notRun index steps).Pairwise fun report later =>
      halts policy report.findings = true → later.status = .notRun := fun {_ _} =>
    List.pairwise_of_forall_mem_list fun _ _ later hmem _ => (mem_notRun hmem).1
  induction h with
  | done => exact .nil
  | skipped _ _ ih => exact .cons (fun _ _ hhalts => nomatch hhalts) ih
  | stopped => exact hnotRun
  | halted => exact .cons (fun later hmem _ => (mem_notRun hmem).1) hnotRun
  | executed _ _ _ hgoes _ ih =>
    exact .cons (fun _ _ hhalts => absurd (hgoes.symm.trans hhalts) Bool.false_ne_true) ih

/-- **The store is what the executed steps make of it**, one after another, and none of
them was begun although the run was asked to stop. -/
theorem executeEach_eq (h : Course policy count context index steps s state r) :
    (executeEach count (executedAmong (steps.zipIdx index) r.reports) s context state).1
      = (turnsAmong r.reports, r.store) := by
  -- The steps left are no turns of the run, so only those executed hand a store on.
  induction h with
  | done => rfl
  | skipped _ _ ih => exact ih
  | stopped =>
    rw [ended, executedAmong_notRun, turnsAmong_notRun]
    rfl
  | @halted index step rest _ s' _ state' findings _ hrunning hexecuted =>
    rw [executedAmong_halted, executeEach_cons hexecuted, hrunning]
    show ([⟨false, findings⟩], s') = (⟨false, findings⟩ :: turnsAmong (notRun (index + 1) rest), s')
    rw [turnsAmong_notRun]
  | @executed index step rest _ s' _ state' findings r _ hrunning hexecuted _ _ ih =>
    show (executeEach count ((step, index) :: executedAmong (rest.zipIdx (index + 1)) r.reports)
      _ _ _).1 = (⟨false, findings⟩ :: turnsAmong r.reports, r.store)
    rw [executeEach_cons hexecuted, hrunning]
    show (_ :: (executeEach count _ s' context state').1.1, _) = _
    rw [ih]

/-- **How the run ends** is told by the reports, the errors of its own, and the state in
which the executed steps leave it. -/
theorem exists_concluded (h : Course policy count context index steps s state r) :
    ∃ own, Concluded policy context (steps.zipIdx index)
      (executeEach count (executedAmong (steps.zipIdx index) r.reports) s context state).2 own r := by
  -- By induction on the course. A step that does not end the run adds its findings in front
  -- and changes nothing else (`Concluded.after`); the three ways to end are compared with
  -- what is said of them, clause by clause.
  induction h with
  | done => exact ⟨[], rfl, rfl, by simp, Or.inl rfl, List.forall_mem_nil _, by simp⟩
  | @skipped index step _ _ _ _ _ _ ih =>
    obtain ⟨own, hown⟩ := ih
    exact ⟨own, hown.after (step, index) (step.report index .skipped .none) nofun rfl⟩
  | @stopped index step rest s state henabled hstop =>
    -- Nothing was executed from here on, so the state is still the one that was asked.
    rw [ended, executedAmong_notRun]
    refine ⟨(stoppedBefore index step).errors, ?_, ?_, ⟨fun _ => Or.inl nofun, fun _ => rfl⟩,
      Or.inr ⟨step, index, List.mem_cons_self, henabled, List.mem_cons_self,
        fun _ hmem _ => le_index_of_mem_notRun hmem, rfl⟩,
      fun _ _ _ => rfl, ?_⟩
    · rw [flatMap_notRun Findings.errors rfl]
      rfl
    · rw [flatMap_notRun Findings.warnings rfl]
      rfl
    · refine iff_of_true nofun ⟨⟨_, List.mem_cons_self, rfl⟩, fun report hmem => ?_, hstop⟩
      rw [(mem_notRun hmem).2]
      rfl
  | @halted index step rest _ _ _ _ findings _ _ _ hhalts =>
    refine ⟨[], ?_, ?_, ⟨fun _ => Or.inr ⟨_, List.mem_cons_self, hhalts⟩, fun _ => rfl⟩,
      Or.inl rfl, fun _ _ _ => rfl, ?_⟩
    · show _ = (findings.errors ++ (notRun (index + 1) rest).flatMap fun report =>
        report.findings.errors) ++ []
      rw [flatMap_notRun Findings.errors rfl, List.append_nil]
      rfl
    · show _ = findings.warnings ++ (notRun (index + 1) rest).flatMap fun report =>
        report.findings.warnings
      rw [flatMap_notRun Findings.warnings rfl]
      rfl
    · -- The error is that of the step, and the question is not asked again.
      refine iff_of_false (fun hown => hown rfl) fun ⟨_, hgoes, _⟩ => ?_
      exact Bool.false_ne_true ((hgoes _ List.mem_cons_self).symm.trans hhalts)
  | @executed index step rest _ s' _ state' findings r _ _ hexecuted hgoes _ ih =>
    obtain ⟨own, hown⟩ := ih
    refine ⟨own, ?_⟩
    show Concluded _ _ _ (executeEach count
      ((step, index) :: executedAmong (rest.zipIdx (index + 1)) r.reports) _ _ _).2 _ _
    rw [executeEach_cons hexecuted]
    exact hown.after (step, index) (step.report index .executed findings) nofun hgoes

end Course

/-! ## The report on a run

The account speaks of the report and of the two stores. Its clauses are those that a
reader of the report would rely on, and each follows from one of the inductions. -/

/-- **What a report tells of a run** that started with `s` and left `final`. It is what a user has
to go by who sees the report and the store, and not the run. -/
structure Account (p : Pipeline) (context : RunContext) (state : RunState) (s : Store)
    (report : RunReport) (final : Store) : Prop where
  /-- There is one report for every step, in order and with its position. -/
  headings : report.steps.map heading = p.steps.zipIdx.map headingOf
  /-- The steps that were reached come first. They were executed, or skipped if they
  are disabled; the others were not run. -/
  statuses : ∃ done rest, p.steps = done ++ rest
    ∧ report.steps.map StepReport.status
        = (done.map fun step => if step.enabled then .executed else .skipped)
          ++ rest.map fun _ => .notRun
  /-- Nothing is found at a step that was not executed. -/
  silent : ∀ r ∈ report.steps, r.status ≠ .executed → r.findings = .none
  /-- The errors are those of the steps, in order, and then those of the run. -/
  errors : report.findings.errors
    = (report.steps.flatMap fun r => r.findings.errors) ++ report.ownErrors
  /-- The warnings are those of the steps. -/
  warnings : report.findings.warnings = report.steps.flatMap fun r => r.findings.warnings
  /-- The run has at most one error, which names the first step that was not run. That
  step is enabled. -/
  ownErrors : report.ownErrors = [] ∨ ∃ step index, (step, index) ∈ p.steps.zipIdx
    ∧ step.enabled = true ∧ step.report index .notRun .none ∈ report.steps
    ∧ (∀ r ∈ report.steps, r.status = .notRun → index ≤ r.index)
    ∧ report.ownErrors = [⟨.cancelled,
        s!"run cancelled before step {index} ({step.displayName})", none⟩]
  /-- The run failed for its own error, or by its policy for that of a step. -/
  failed_iff : report.phase = .failed ↔ report.ownErrors ≠ [] ∨ p.policy = .haltOnError
    ∧ ∃ r ∈ report.steps, r.status = .executed ∧ r.findings.hasErrors = true
  /-- Otherwise it came to its end. -/
  completed : report.phase ≠ .failed → report.phase = .completed
  /-- If the run is to end with an error of a step, that step is the last one executed. -/
  last : p.policy = .haltOnError → report.steps.Pairwise fun r later =>
    r.findings.hasErrors = true → later.status ≠ .executed
  /-- The executed steps, one after another, find what is reported and leave the store
  that the run leaves. The run was not asked to stop before any of them. -/
  executed : (executeEach p.steps.length (executedAmong p.steps.zipIdx report.steps) s
    context state).1 = (turnsAmong report.steps, final)
  /-- A run that did not fail left no step that was not run. -/
  left : ∀ r ∈ report.steps, r.status = .notRun → report.phase = .failed
  /-- The run has an error of its own if and only if it left steps, no error of a step was
  to end it, and it was asked to stop after the last step that was executed. -/
  stopped_iff : report.ownErrors ≠ [] ↔ (∃ r ∈ report.steps, r.status = .notRun)
    ∧ (p.policy = .haltOnError → ∀ r ∈ report.steps, r.findings.hasErrors = false)
    ∧ (Run.isStopped context (executeEach p.steps.length
        (executedAmong p.steps.zipIdx report.steps) s context state).2).1 = true

theorem halts_iff {findings : Findings} :
    halts policy findings = true ↔ policy = .haltOnError ∧ findings.hasErrors = true := by
  rw [halts, Bool.and_eq_true, decide_eq_true_eq, and_comm]

theorem halts_eq_false_iff {findings : Findings} :
    halts policy findings = false ↔ policy = .haltOnError → findings.hasErrors = false := by
  rw [← Bool.not_eq_true, halts_iff, not_and, Bool.not_eq_true]

/-- **The report on a run is an account of it**, whatever the filters do, whichever the
policy is, and at whatever moment the run is asked to stop. -/
theorem account_run (p : Pipeline) (s : Store) (context : RunContext) (state : RunState) :
    let result := (p.run s context state).1
    p.Account context state s result.1 result.2 := by
  intro result
  have h := course_runSteps p.policy p.steps.length 0 p.steps s context state
  have hresult : result = (⟨if (runSteps p.policy p.steps.length 0 p.steps s context state).1.failed
      then .failed else .completed, _, _⟩, _) := rfl
  rw [hresult]
  generalize (runSteps p.policy p.steps.length 0 p.steps s context state).1 = r at h ⊢
  obtain ⟨own, hown⟩ := h.exists_concluded
  have hphase : (if r.failed = true then RunPhase.failed else .completed) = .failed
      ↔ r.failed = true := by
    cases r.failed <;> simp
  -- The findings begin with those of the steps, so what is behind them is the run's own.
  have hdrop : RunReport.ownErrors ⟨if r.failed then .failed else .completed, r.findings, r.reports⟩
      = own := by
    show r.findings.errors.drop _ = own
    rw [hown.errors, List.drop_left]
  -- A report with errors is that of a step that was executed: the others say nothing.
  have hexecuted : ∀ report ∈ r.reports, report.findings.hasErrors = true →
      report.status = .executed := fun report hmem herrors => by
    by_contra hstatus
    rw [h.silent report hmem hstatus] at herrors
    cases herrors
  exact {
    headings := h.headings
    statuses := h.statuses
    silent := h.silent
    errors := hdrop.symm ▸ hown.errors
    warnings := hown.warnings
    ownErrors := hdrop.symm ▸ hown.own_cases
    failed_iff := by
      refine hphase.trans (hown.failed_iff.trans ?_)
      rw [hdrop]
      refine or_congr_right ⟨fun ⟨report, hmem, hhalts⟩ => ?_,
        fun ⟨hpolicy, report, hmem, _, herrors⟩ => ⟨report, hmem, halts_iff.2 ⟨hpolicy, herrors⟩⟩⟩
      obtain ⟨hpolicy, herrors⟩ := halts_iff.1 hhalts
      exact ⟨hpolicy, report, hmem, hexecuted report hmem herrors, herrors⟩
    completed := fun hphase => by
      cases hfailed : r.failed with
      | false => rfl
      | true => simp [hfailed] at hphase
    last := fun hpolicy => h.pairwise.imp fun hlater herrors hstatus => by
      rw [hlater (halts_iff.2 ⟨hpolicy, herrors⟩)] at hstatus
      cases hstatus
    executed := h.executeEach_eq
    left := fun report hmem hstatus => hphase.2 (hown.left report hmem hstatus)
    stopped_iff := by
      rw [hdrop, hown.own_iff]
      simp only [halts_eq_false_iff]
      exact and_congr_right fun _ => and_congr_left fun _ =>
        ⟨fun hgoes hpolicy report hmem => hgoes report hmem hpolicy,
          fun hgoes report hmem hpolicy => hgoes hpolicy report hmem⟩ }

/-- Of four steps the second is disabled and the third fails, which does not end this run,
but before the fourth the run is asked to stop. What the first one did remains. -/
theorem account_run_mixed :
    let context : RunContext := ⟨⟨0, 0⟩, fun moment => decide (4 < moment.polls)⟩
    let p := Pipeline.ofSteps "mixed" .continueOnError
      [⟨Filter.createGroup, [("data_path", .text "A")], true, none⟩,
        ⟨Filter.createGroup, [("data_path", .text "B")], false, none⟩,
        ⟨Filter.deleteData, [("data_path", .text "C")], true, none⟩,
        ⟨Filter.createGroup, [("data_path", .text "D")], true, none⟩]
    let result := (p.run (Store.after []) context (RunState.start ⟨[], []⟩)).1
    p.Account context (RunState.start ⟨[], []⟩) (Store.after []) result.1 result.2
      ∧ result.1.steps.map StepReport.status = [.executed, .skipped, .executed, .notRun]
      ∧ result.1.findings.errors.map Diagnostic.code = [.pathNotFound, .cancelled]
      ∧ result.1.ownErrors.map Diagnostic.code = [.cancelled]
      ∧ result.1.phase = .failed
      ∧ (result.2.list none).map DataPath.text = ["A"] := by
  intro context p result
  refine ⟨account_run p _ context _, ?_, ?_, ?_, ?_, ?_⟩ <;> decide +kernel

end Meshwork.Pipeline
