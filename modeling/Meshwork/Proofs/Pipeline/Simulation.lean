import Meshwork.Pipeline.Run
import Meshwork.Proofs.Filter.Faithful

/-!
# Runs beside checks

A check goes through the steps of a pipeline as a run does, on a store of its own
that takes the rehearsed edits of each step (`Pipeline.scratch`). If nobody asks a
run to stop, and no step makes it end early, run and check go through the same
steps, and what holds of the two stores and of the findings of one step holds of
all of them (`Pipeline.runSteps_simulates`).
-/

namespace Meshwork

/-- **Reports on the same step**, with findings in a relation. All but the findings is equal: the
position, the filter, the label and the status. -/
def StepReport.Agree (found : Findings → Findings → Prop) (report other : StepReport) : Prop :=
  report = { other with findings := report.findings } ∧ found report.findings other.findings

namespace Pipeline

variable {files : FileSystem} {step : Step} {done rest steps : List Step} {index count : Nat}
  {s t : Store}

/-! ## The store of a check

The check has a store as well, on which it rehearses. It is computed here by itself, apart
from what is found. -/

/-- The store that the steps after a step are checked against. -/
def scratchStep (files : FileSystem) (t : Store) (step : Step) : Store :=
  if step.enabled then (checkStep files step t).2 else t

/-- **The store that a check ends with.** Each enabled step leaves there what its rehearsal makes
of the store before. -/
def scratch (files : FileSystem) (steps : List Step) (t : Store) : Store :=
  steps.foldl (scratchStep files) t

/-- **A property of every enabled step** and of the store that it is checked against. It is a
recursion over the steps, since the store at each of them comes from those before. -/
def Throughout (files : FileSystem) (holds : Step → Store → Prop) : List Step → Store → Prop
  | [], _ => True
  | step :: rest, t =>
    (step.enabled = true → holds step t) ∧ Throughout files holds rest (scratchStep files t step)

/-- The status of a step that is reached. -/
def reached (step : Step) : StepStatus := if step.enabled then .executed else .skipped

/-- What a check finds at a step. -/
def found (files : FileSystem) (t : Store) (step : Step) : Findings :=
  if step.enabled then (checkStep files step t).1 else .none

theorem checkSteps_cons (files : FileSystem) (index : Nat) (step : Step) (rest : List Step)
    (t : Store) : checkSteps files index (step :: rest) t
      = step.report index (reached step) (found files t step)
        :: checkSteps files (index + 1) rest (scratchStep files t step) := by
  rw [checkSteps, reached, found, scratchStep]
  cases step.enabled <;> rfl

/-- A check reaches every step. -/
theorem map_status_checkSteps (files : FileSystem) (index : Nat) (steps : List Step) (t : Store) :
    (checkSteps files index steps t).map StepReport.status = steps.map reached := by
  induction steps generalizing index t with
  | nil => rfl
  | cons step rest ih =>
    rw [checkSteps_cons, List.map_cons, ih]
    rfl

theorem throughout_of_forall {holds : Step → Store → Prop} (h : ∀ step t, holds step t) :
    Throughout files holds steps t := by
  induction steps generalizing t with
  | nil => trivial
  | cons step rest ih => exact ⟨fun _ => h step t, ih⟩

/-- Where the check of every step finds no error, every enabled step was checked
without one. -/
theorem throughout_of_checkSteps
    (h : ∀ report ∈ checkSteps files index steps t, report.findings.hasErrors = false) :
    Throughout files (fun step t => (checkStep files step t).1.hasErrors = false) steps t := by
  induction steps generalizing index t with
  | nil => trivial
  | cons step rest ih =>
    rw [checkSteps_cons, List.forall_mem_cons] at h
    refine ⟨fun henabled => ?_, ih h.2⟩
    have hfound : (found files t step).hasErrors = false := h.1
    rwa [found, if_pos henabled] at hfound

/-! ## All findings

The findings of a check are those of its steps in order, and so are those of a run that no
error of its own ends. -/

theorem allFindings_cons (report : StepReport) (reports : List StepReport) :
    allFindings (report :: reports) = report.findings ++ allFindings reports := by
  have hassoc : ∀ a b c : Findings, a ++ b ++ c = a ++ (b ++ c) := fun a b c =>
    congrArg₂ Findings.mk (List.append_assoc _ _ _) (List.append_assoc _ _ _)
  have hfold : ∀ (others : List StepReport) (a : Findings),
      others.foldl (fun findings report => findings ++ report.findings) a
        = a ++ allFindings others := by
    intro others
    induction others with
    | nil => exact fun a => (congrArg₂ Findings.mk (List.append_nil _) (List.append_nil _)).symm
    | cons other others ih =>
      intro a
      rw [allFindings, List.foldl_cons, List.foldl_cons, ih, ih, hassoc, hassoc]
      rfl
  rw [allFindings, List.foldl_cons, hfold]
  rfl

/-- **There is no error** if there is none at any step. Warnings may be found at any of them. -/
theorem hasErrors_allFindings_eq_false_iff (reports : List StepReport) :
    (allFindings reports).hasErrors = false
      ↔ ∀ report ∈ reports, report.findings.hasErrors = false := by
  induction reports with
  | nil => exact ⟨fun _ => by simp, fun _ => rfl⟩
  | cons report rest ih =>
    rw [allFindings_cons, Findings.hasErrors_append, Bool.or_eq_false_iff, ih, List.forall_mem_cons]

/-! ## One step of a run

The loop of a run in the two cases in which it goes on. -/

variable {policy : FailurePolicy} {context : RunContext} {state : RunState}

theorem runSteps_disabled (henabled : step.enabled = false) :
    (runSteps policy count index (step :: rest) s context state).1
      = (runSteps policy count (index + 1) rest s context state).1.after
          (step.report index (reached step) .none) := by
  rw [runSteps, reached, henabled]
  rfl

/-- A step that is executed, and does not end the run. -/
theorem runSteps_enabled (henabled : step.enabled = true)
    (hrunning : (Run.isStopped context state).1 = false) :
    let executed := executeStep count index step s context (Run.isStopped context state).2
    halts policy executed.1.1 = false →
      (runSteps policy count index (step :: rest) s context state).1
        = (runSteps policy count (index + 1) rest executed.1.2 context executed.2).1.after
            (step.report index (reached step) executed.1.1) := by
  intro executed hgoes
  rw [runSteps, reached, henabled]
  simp only [Run.bind_apply, Run.ite_apply, hrunning]
  show (if halts policy executed.1.1 = true then _ else _ : Remainder × RunState).1 = _
  rw [if_neg (hgoes ▸ Bool.false_ne_true)]
  rfl

/-! ## All steps

The relation between the stores and the one between the findings are parameters. What has
to be shown for them is that one step keeps the first and establishes the second. -/

variable {related : Store → Store → Prop} {agree : Findings → Findings → Prop}

/-- **A run that comes to its end beside a check**: the findings of the steps agree, and the
stores are related. The relation of stores may be equality or a weaker one, as for trees that
differ in their values. -/
structure Beside (related : Store → Store → Prop) (agree : Findings → Findings → Prop)
    (checked : List StepReport) (t : Store) (r : Remainder) : Prop where
  /-- The run does not end early. -/
  completed : r.failed = false
  /-- The reports are on the same steps. -/
  reports : List.Forall₂ (StepReport.Agree agree) r.reports checked
  /-- Nothing is found but at the steps. -/
  findings : r.findings = allFindings r.reports
  /-- The stores are related. -/
  store : related r.store t

/-- What becomes of the steps is the same. -/
theorem Beside.map_status_eq {checked : List StepReport} {r : Remainder}
    (h : Beside related agree checked t r) :
    r.reports.map StepReport.status = checked.map StepReport.status := by
  rw [← List.forall₂_eq_eq_eq, List.forall₂_map_left_iff, List.forall₂_map_right_iff]
  refine h.reports.imp fun report other hreport => ?_
  rw [hreport.1]

/-- One step comes before the others. -/
theorem Beside.after {checked : List StepReport} {r : Remainder}
    (h : Beside related agree checked t r) {report other : StepReport}
    (hreport : report.Agree agree other) :
    Beside related agree (other :: checked) t (r.after report) where
  completed := h.completed
  reports := .cons hreport h.reports
  findings := by rw [Remainder.after, allFindings_cons, h.findings]
  store := h.store

/-- **A run is beside the check** if the stores are related at the start, and every
step that is checked keeps them so, with findings that agree and do not end the
run. What `holds` says of a step may depend on the store that it is checked
against. -/
theorem runSteps_simulates {holds : Step → Store → Prop} (hcontext : context.NeverStops)
    (hnone : agree .none .none)
    (hstep : ∀ step ∈ steps, step.enabled = true → ∀ s t, related s t → holds step t →
      ∀ state : RunState, state.On files →
        let executed := step.filter.execute s step.arguments context state
        halts policy executed.1.1 = false ∧ agree executed.1.1 (checkStep files step t).1
          ∧ related executed.1.2 (checkStep files step t).2 ∧ executed.2.On files)
    (hstart : related s t) (hall : Throughout files holds steps t) (hstate : state.On files) :
    Beside related agree (checkSteps files index steps t) (scratch files steps t)
      (runSteps policy count index steps s context state).1 := by
  induction steps generalizing index s t state with
  | nil => exact ⟨rfl, .nil, rfl, hstart⟩
  | cons step rest ih =>
    obtain ⟨hfirst, hothers⟩ := List.forall_mem_cons.1 hstep
    obtain ⟨hholds, hrest⟩ := hall
    rw [checkSteps_cons, scratch, List.foldl_cons]
    cases henabled : step.enabled with
    | false =>
      rw [runSteps_disabled henabled, found, scratchStep, henabled, if_neg Bool.false_ne_true,
        if_neg Bool.false_ne_true]
      rw [scratchStep, henabled, if_neg Bool.false_ne_true] at hrest
      exact (ih hothers hstart hrest hstate).after ⟨rfl, hnone⟩
    | true =>
      rw [scratchStep, if_pos henabled] at hrest
      rw [found, scratchStep, if_pos henabled, if_pos henabled]
      -- The step is executed after its own report of progress.
      have hready : (Run.report step.filter.name s!"step {index + 1} of {count}" context
          (Run.isStopped context state).2).2.On files :=
        Run.Steady.of_report _ _ context _ files hcontext
          (Run.Steady.of_isStopped context state files hcontext hstate)
      obtain ⟨hgoes, hfound, hstore, hnext⟩ :=
        hfirst henabled s t hstart (hholds henabled) _ hready
      rw [runSteps_enabled henabled (Run.isStopped_eq_false hcontext hstate) hgoes]
      exact (ih hothers hstore hrest hnext).after ⟨rfl, hfound⟩

end Pipeline

end Meshwork
