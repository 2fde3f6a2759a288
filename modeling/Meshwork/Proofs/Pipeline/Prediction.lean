import Meshwork.Proofs.Filter.Merge
import Meshwork.Proofs.Filter.Structure
import Meshwork.Proofs.Pipeline.Soundness

/-!
# What a check predicts

Filters that make just the edits they announce find the same at a check as in a
run. If a run goes on after errors, the check therefore predicts what it reports,
step after step, for as long as both work on the same store
(`Pipeline.take_steps_run_eq`).

There is one way for the stores to part (`Pipeline.execute_eq_checkStep`). A run
makes the edits of a step together or not at all, and the check rehearses them one
by one. When a container is read without permission to overwrite, and the store has
some of its objects and not the others (`Step.IsSplit`), the run makes no edit and
the check keeps the others.

From there on the check can be mistaken, and every split read makes it so: a removal
of an object that the check keeps is passed by the check and refused in the run
(`Pipeline.hasErrors_reports_of_isSplit`). So the prediction cannot reach further than
the step after a split read.
-/

namespace Meshwork

open Meshwork.Filter

/-- **Edits that can be made leave the same store** when they are rehearsed as when they are
committed. A rehearsal keeps going after a refused edit where a commit stops, so they differ only
if one is refused. -/
theorem commit_eq_rehearse {s : Store} {edits : List Edit} (h : (rehearse edits s).1 = .none) :
    (commit edits s).2 = (rehearse edits s).2 := by
  suffices ∀ index log, (attempt index log s edits).refusal = none
      ∧ (attempt index log s edits).store = (rehearse edits s).2 by
    obtain ⟨hnone, hstore⟩ := this 0 []
    rw [commit, hnone]
    exact hstore
  induction edits generalizing s with
  | nil => exact fun _ _ => ⟨rfl, rfl⟩
  | cons edit rest ih =>
    intro index log
    rw [attempt]
    rw [rehearse] at h ⊢
    generalize edit.make.apply s = made at h ⊢
    obtain ⟨_ | undo, t⟩ := made
    · cases h
    · exact ih h _ _

/-! ## One step

The check and the run of one step look at the same edits, on the same store. They differ
in what they do with edits that are refused: the rehearsal leaves out those and makes the
others, and the commit makes none. -/

/-- The edits that a step announces. -/
def Step.announced (files : FileSystem) (step : Step) (s : Store) : List Edit :=
  (step.filter.plan files s (bind step.filter.parameters step.arguments).1).edits

/-- **A read that is partly refused**: nothing is wrong with its plan, but it may not
overwrite, and of the objects that it announces, one is at a path that is taken and
one at a path that is free. -/
def Step.IsSplit (files : FileSystem) (step : Step) (s : Store) : Prop :=
  step.filter = readStore ∧ (readStore.declare files s step.arguments).findings.hasErrors = false
    ∧ (∃ o, ReadOptions.ofArguments (bind readStore.parameters step.arguments).1 = .ok o
      ∧ o.overwrite = false)
    ∧ (∃ edit ∈ step.announced files s, s.contains edit.path = true)
    ∧ ∃ edit ∈ step.announced files s, s.contains edit.path = false

namespace Pipeline

variable {files : FileSystem} {step : Step} {s : Store}

/-- The filters whose edits are announced are straight. -/
theorem straight_of_mem (h : step.filter ∈ [readStore, createGroup, deleteData]) :
    step.filter.Straight := by
  simp only [List.mem_cons, List.not_mem_nil, or_false] at h
  rcases h with h | h | h <;> rw [h]
  · exact straight_readStore
  · exact straight_createGroup
  · exact straight_deleteData

/-- **A step that is not split makes all of its edits or is refused them all.** Only a read
announces more than one edit, and it is split if some of its paths are taken and some are free. -/
theorem accepted_or_refused (hs : s.Sound)
    (hfilter : step.filter ∈ [readStore, createGroup, deleteData])
    (hplan : (step.filter.declare files s step.arguments).findings.hasErrors = false)
    (hsplit : ¬step.IsSplit files s) :
    (∀ edit ∈ step.announced files s, edit.Accepted s.get?)
      ∨ ∀ edit ∈ step.announced files s, ¬edit.Accepted s.get? := by
  -- Creating a group and deleting announce one edit at most, so only a read can be split.
  have hone : ∀ edit : Edit, (∀ other ∈ [edit], other.Accepted s.get?)
      ∨ ∀ other ∈ [edit], ¬other.Accepted s.get? := fun edit => by
    simpa only [List.forall_mem_singleton] using Classical.em (edit.Accepted s.get?)
  have hempty : (∀ edit ∈ ([] : List Edit), edit.Accepted s.get?)
      ∨ ∀ edit ∈ ([] : List Edit), ¬edit.Accepted s.get? := Or.inl (by simp)
  obtain ⟨filter, arguments, enabled, label⟩ := step
  simp only [List.mem_cons, List.not_mem_nil, or_false] at hfilter
  rcases hfilter with rfl | rfl | rfl
  · rw [Step.IsSplit] at hsplit
    dsimp only [Step.announced] at hsplit ⊢
    rcases edits_readStore_plan files s (bind readStore.parameters arguments).1 with
      he | ⟨o, loaded, ho, -, hloaded, he⟩
    · rw [he]
      exact hempty
    · rw [he] at hsplit ⊢
      refine Classical.or_iff_not_imp_left.2 fun hnot free hfree haccepted => hsplit ?_
      obtain ⟨taken, htaken, hrefused⟩ : ∃ taken ∈ o.edits loaded, ¬taken.Accepted s.get? := by
        simpa using hnot
      rw [ReadOptions.accepted_iff hloaded htaken, not_or, Bool.not_eq_true] at hrefused
      rw [ReadOptions.accepted_iff hloaded hfree, hrefused.2] at haccepted
      refine ⟨rfl, hplan, ⟨o, ho, hrefused.2⟩, ⟨taken, htaken, ?_⟩, free, hfree, ?_⟩
      · rw [hs.coherent.contains_eq, Option.isSome_iff_ne_none]
        exact hrefused.1
      · rw [hs.coherent.contains_eq, haccepted.resolve_right Bool.false_ne_true]
        rfl
  · dsimp only [Step.announced]
    rw [createGroup_plan]
    split
    · exact hone _
    · exact hempty
  · dsimp only [Step.announced]
    rw [deleteData_plan]
    split
    · exact hempty
    · split
      · exact hone _
      · exact hempty

/-- **What a split read announces**: an object that is refused, since its path is taken. The
objects at paths that are free are all accepted. -/
theorem accepted_of_isSplit (hs : s.Sound) (hsplit : step.IsSplit files s) :
    (∃ edit ∈ step.announced files s, ¬edit.Accepted s.get?)
      ∧ ∀ edit ∈ step.announced files s, s.contains edit.path = false →
        (∃ path subtree overwrite, edit = .insert path subtree overwrite)
          ∧ edit.Accepted s.get? := by
  obtain ⟨filter, arguments, enabled, label⟩ := step
  obtain ⟨rfl, -, ⟨o, ho, hkeep⟩, ⟨taken, htaken, hcontains⟩, -⟩ := hsplit
  dsimp only [Step.announced] at htaken ⊢
  rcases edits_readStore_plan files s (bind readStore.parameters arguments).1 with
    he | ⟨o', loaded, ho', -, hloaded, he⟩
  · rw [he] at htaken
    cases htaken
  obtain rfl := Except.ok.inj (ho.symm.trans ho')
  rw [he] at htaken ⊢
  rw [hs.coherent.contains_eq] at hcontains
  -- Nothing is overwritten in a split read, so its edits are accepted exactly at free paths.
  refine ⟨⟨taken, htaken, fun haccepted => ?_⟩, fun free hfree hlacks => ?_⟩
  · rcases (ReadOptions.accepted_iff hloaded htaken).1 haccepted with hgone | hoverwrite
    · rw [hgone] at hcontains
      cases hcontains
    · exact Bool.false_ne_true (hkeep.symm.trans hoverwrite)
  · rw [hs.coherent.contains_eq] at hlacks
    have hnone : s.get? free.path = none :=
      Option.not_isSome_iff_eq_none.1 (Bool.eq_false_iff.1 hlacks)
    have haccepted := (ReadOptions.accepted_iff hloaded hfree).2 (Or.inl hnone)
    obtain ⟨path, subtree, rfl, -⟩ := ReadOptions.exists_of_mem_edits hloaded hfree
    exact ⟨⟨path, subtree, _, rfl⟩, haccepted⟩

/-- **A split read** is reported at the check, which keeps the objects at paths that were free.
These objects are what a run does not have, since it does nothing of such a read. -/
theorem rehearse_of_isSplit (hs : s.Sound) (hsplit : step.IsSplit files s) :
    (rehearse (step.announced files s) s).1.hasErrors = true
      ∧ ∀ edit ∈ step.announced files s, s.contains edit.path = false →
        ((rehearse (step.announced files s) s).2.get? edit.path).isSome = true := by
  have hstraight : step.filter.Straight := hsplit.1 ▸ straight_readStore
  have hapart : Edit.Apart (step.announced files s) := hstraight.apart files s _
  have hplain : ∀ edit ∈ step.announced files s, edit.IsPlain := hstraight.plain files s _
  obtain ⟨⟨taken, htaken, hrefused⟩, hkept⟩ := accepted_of_isSplit hs hsplit
  constructor
  · rcases (hs.rehearse_cases (step.announced files s)).2 with ⟨hall, -⟩ | ⟨-, herrors⟩
    · exact absurd ((hapart.acceptedEach_iff hplain).1 hall taken htaken) hrefused
    · exact herrors
  · intro free hfree hlacks
    obtain ⟨⟨path, subtree, overwrite, rfl⟩, haccepted⟩ := hkept free hfree hlacks
    show ((rehearse (step.announced files s) s).2.get? path).isSome = true
    rw [hapart.get?_rehearse hs hplain hfree haccepted (rfl : path.top = path.top)]
    show (PathMap.graft path subtree.tree s.get? path).isSome = true
    rw [PathMap.graft, DataPath.relative?_self]
    rfl

/-- **A check of a straight filter** finds what is found beforehand, and rehearses the edits after a
plan without errors. The findings are also those of an execution, whatever becomes of the store. -/
theorem checkStep_eq (hs : s.Sound) (h : step.filter.Straight) :
    checkStep files step s = (step.filter.preflight files s step.arguments,
      if (step.filter.declare files s step.arguments).findings.hasErrors then s
      else (rehearse (step.announced files s) s).2) := by
  rw [checkStep, Filter.preflight, checkPlan]
  cases hplan : (step.filter.declare files s step.arguments).findings.hasErrors with
  | true => rfl
  | false =>
    obtain ⟨-, -, hedits⟩ := declare_of_hasErrors_eq_false hplan
    rw [hedits, ← (h.apart files s _).rehearse_eq (h.plain files s _) hs]
    rfl

/-- **An execution of a straight filter** finds what is found beforehand, and commits the edits if
that is no error. So a check and an execution differ only in what they do with edits of which some
are refused. -/
theorem execute_eq (hs : s.Sound) (h : step.filter.Straight) {context : RunContext}
    {state : RunState} (hcontext : context.NeverStops) (hstate : state.On files) :
    (step.filter.execute s step.arguments context state).1
      = (step.filter.preflight files s step.arguments,
        if (step.filter.preflight files s step.arguments).hasErrors then s
        else (commit (step.announced files s) s).2) := by
  have hrunning := Run.isStopped_eq_false hcontext hstate
  cases hbefore : (step.filter.preflight files s step.arguments).hasErrors with
  | true =>
    have happly := step.filter.execute_apply s step.arguments hrunning
    dsimp only at happly
    rwa [hstate.files, hbefore] at happly
  | false =>
    obtain ⟨haccepted, hwork⟩ := h.acceptedEach hs hbefore context
      (Run.isStopped context state).2 hstate.files
    obtain ⟨hfound, hcommit⟩ := step.filter.execute_of_acceptedEach hs step.arguments hrunning
      (hstate.files ▸ hbefore) (by rw [hwork]; rfl) (by rw [hwork]; exact haccepted)
    rw [hwork] at hfound hcommit
    rw [hstate.files] at hfound
    refine Prod.ext (hfound.trans ?_) (congrArg Prod.snd hcommit).symm
    exact congrArg₂ Findings.mk (List.append_nil _) (List.append_nil _)

/-- If the plan has no error, what is found beforehand has one exactly if a rehearsal
finds one. -/
theorem hasErrors_preflight_eq (hs : s.Sound) (h : step.filter.Straight)
    (hplan : (step.filter.declare files s step.arguments).findings.hasErrors = false) :
    (step.filter.preflight files s step.arguments).hasErrors
      = (rehearse (step.announced files s) s).1.hasErrors := by
  obtain ⟨-, -, hedits⟩ := declare_of_hasErrors_eq_false hplan
  rw [Step.announced, (h.apart files s _).rehearse_eq (h.plain files s _) hs, Filter.preflight,
    checkPlan, if_neg (hplan ▸ Bool.false_ne_true), Findings.hasErrors_append, hplan,
    Findings.hasErrors_attributed, hedits]
  rfl

/-- What is found beforehand at a split read has an error. -/
theorem hasErrors_preflight_of_isSplit (hs : s.Sound) (hsplit : step.IsSplit files s) :
    (step.filter.preflight files s step.arguments).hasErrors = true := by
  have hplan : (step.filter.declare files s step.arguments).findings.hasErrors = false := by
    rw [hsplit.1]
    exact hsplit.2.1
  rw [hasErrors_preflight_eq hs (hsplit.1 ▸ straight_readStore) hplan]
  exact (rehearse_of_isSplit hs hsplit).1

/-- **An execution of a split read** leaves the store as it was. Its edits are not even tried,
because the preflight finds that they would be refused. -/
theorem execute_of_isSplit (hs : s.Sound) (hsplit : step.IsSplit files s) {context : RunContext}
    {state : RunState} (hcontext : context.NeverStops) (hstate : state.On files) :
    (step.filter.execute s step.arguments context state).1.2 = s := by
  rw [execute_eq hs (hsplit.1 ▸ straight_readStore) hcontext hstate]
  exact if_pos (hasErrors_preflight_of_isSplit hs hsplit)

/-- **A check of a split read** keeps the objects at paths that were free. -/
theorem checkStep_of_isSplit (hs : s.Sound) (hsplit : step.IsSplit files s) :
    (checkStep files step s).2 = (rehearse (step.announced files s) s).2 := by
  have hplan : (step.filter.declare files s step.arguments).findings.hasErrors = false := by
    rw [hsplit.1]
    exact hsplit.2.1
  rw [checkStep_eq hs (hsplit.1 ▸ straight_readStore)]
  exact if_neg (hplan ▸ Bool.false_ne_true)

/-- **A check finds what an execution finds**, and leaves the same store just if the step is not
split. It is the step lemma for what a check says of a run. -/
theorem execute_eq_checkStep (hs : s.Sound)
    (hfilter : step.filter ∈ [readStore, createGroup, deleteData]) {context : RunContext}
    {state : RunState} (hcontext : context.NeverStops) (hstate : state.On files) :
    let executed := (step.filter.execute s step.arguments context state).1
    executed.1 = (checkStep files step s).1
      ∧ (executed.2 = (checkStep files step s).2 ↔ ¬step.IsSplit files s) := by
  have h := straight_of_mem hfilter
  have hapart : Edit.Apart (step.announced files s) := h.apart files s _
  have hplain : ∀ edit ∈ step.announced files s, edit.IsPlain := h.plain files s _
  intro executed
  refine ⟨?_, fun hsame hsplit => ?_, fun hsplit => ?_⟩
  · rw [show executed = _ from execute_eq hs h hcontext hstate, checkStep_eq hs h]
  · obtain ⟨-, -, -, -, free, hfree, hlacks⟩ := id hsplit
    have hkept := (rehearse_of_isSplit hs hsplit).2 free hfree hlacks
    rw [← checkStep_of_isSplit hs hsplit, ← hsame, execute_of_isSplit hs hsplit hcontext hstate,
      ← hs.coherent.contains_eq, hlacks] at hkept
    cases hkept
  · rw [show executed = _ from execute_eq hs h hcontext hstate, checkStep_eq hs h]
    cases hplan : (step.filter.declare files s step.arguments).findings.hasErrors with
    | true =>
      have hbefore : (step.filter.preflight files s step.arguments).hasErrors = true := by
        rw [Filter.preflight, checkPlan, if_pos hplan, hplan]
      exact if_pos hbefore
    | false =>
      dsimp only
      rw [hasErrors_preflight_eq hs h hplan]
      rcases (hs.rehearse_cases (step.announced files s)).2 with ⟨-, hnone, -⟩ | ⟨hrefused, herrors⟩
      · rw [hnone]
        exact commit_eq_rehearse hnone
      · rw [herrors]
        -- The edits are not all accepted, so all of them are refused.
        refine (Edit.rehearse_of_refused hs ((accepted_or_refused hs hfilter hplan
          hsplit).resolve_left fun haccepted => hrefused ?_)).symm
        exact (hapart.acceptedEach_iff hplain).2 haccepted

/-! ## All steps

The stores agree up to the first split read, and the reports one step further, since a
step reports on the store that it finds. What becomes of the steps is the same even
behind, as no error ends the run. -/

theorem sound_scratchStep (hs : s.Sound) (files : FileSystem) (step : Step) :
    (scratchStep files s step).Sound := by
  rw [scratchStep, checkStep]
  split
  · dsimp only
    split
    · exact hs
    · exact (hs.rehearse_cases _).1
  · exact hs

/-- A run that goes on after errors never ends early for one. -/
theorem halts_continueOnError (findings : Findings) : halts .continueOnError findings = false :=
  Bool.and_false _

/-- **The first report of a run** is that of the check. Then the run goes on from the
store that the check has, if the step was not split, and from the old one if it was. -/
theorem reports_runSteps_cons (count index : Nat) (rest : List Step) (hs : s.Sound)
    (hfilter : step.enabled = true → step.filter ∈ [readStore, createGroup, deleteData])
    {context : RunContext} {state : RunState} (hcontext : context.NeverStops)
    (hstate : state.On files) :
    ∃ s' state', state'.On files
      ∧ ((step.enabled = true → ¬step.IsSplit files s) → s' = scratchStep files s step)
      ∧ (step.IsSplit files s → s' = s)
      ∧ (runSteps .continueOnError count index (step :: rest) s context state).1.reports
        = step.report index (reached step) (found files s step)
          :: (runSteps .continueOnError count (index + 1) rest s' context state').1.reports := by
  cases henabled : step.enabled with
  | false =>
    refine ⟨s, state, hstate, fun _ => ?_, fun _ => rfl, ?_⟩
    · rw [scratchStep, henabled, if_neg Bool.false_ne_true]
    · rw [runSteps_disabled henabled, found, henabled, if_neg Bool.false_ne_true]
      rfl
  | true =>
    -- Asking whether to stop and telling of the step both leave the files as they are.
    have hready : (Run.report step.filter.name s!"step {index + 1} of {count}" context
        (Run.isStopped context state).2).2.On files :=
      Run.Steady.of_report _ _ context _ files hcontext
        (Run.Steady.of_isStopped context state files hcontext hstate)
    obtain ⟨hfound, hstore⟩ := execute_eq_checkStep hs (hfilter henabled) hcontext hready
    have hnext := steady_of_mem (List.mem_cons_of_mem importGeometry (hfilter henabled)) s context _
      files hcontext hready
    let executed := executeStep count index step s context (Run.isStopped context state).2
    refine ⟨executed.1.2, executed.2, hnext, fun hsplit => ?_,
      fun hsplit => execute_of_isSplit hs hsplit hcontext hready, ?_⟩
    · rw [scratchStep, if_pos henabled]
      exact hstore.2 (hsplit rfl)
    · rw [runSteps_enabled henabled (Run.isStopped_eq_false hcontext hstate)
        (halts_continueOnError _), found, if_pos henabled, ← hfound]
      rfl

/-- The reports are the same up to the first step after a split read. -/
theorem take_reports_runSteps (count index : Nat) {done rest : List Step} (hs : s.Sound)
    (hsteps : ∀ step ∈ done ++ rest, step.enabled = true →
      step.filter ∈ [readStore, createGroup, deleteData])
    (hwhole : Throughout files (fun step t => ¬step.IsSplit files t) done s)
    {context : RunContext} {state : RunState} (hcontext : context.NeverStops)
    (hstate : state.On files) :
    (runSteps .continueOnError count index (done ++ rest) s context state).1.reports.take
        (done.length + 1)
      = (checkSteps files index (done ++ rest) s).take (done.length + 1) := by
  -- Both stores are the same before each of the first steps, since none of them is split.
  induction done generalizing index s state with
  | nil =>
    cases rest with
    | nil => rfl
    | cons step others =>
      obtain ⟨s', state', -, -, -, hreports⟩ := reports_runSteps_cons count index others hs
        (hsteps step List.mem_cons_self) hcontext hstate
      rw [List.nil_append, hreports, checkSteps_cons]
      rfl
  | cons step others ih =>
    obtain ⟨hfirst, hothers⟩ := List.forall_mem_cons.1 hsteps
    obtain ⟨s', state', hstate', hstore, -, hreports⟩ :=
      reports_runSteps_cons count index (others ++ rest) hs hfirst hcontext hstate
    obtain rfl := hstore hwhole.1
    rw [List.cons_append, hreports, checkSteps_cons, List.length_cons, List.take_succ_cons,
      List.take_succ_cons]
    exact congrArg _ (ih (index + 1) (sound_scratchStep hs files step) hothers hwhole.2 hstate')

/-- **A check predicts a run that goes on after errors**, for pipelines that read
containers, create groups and take out data, on every store that operations lead to.
The reports are the same up to the first step after a split read, and so are all of
them if no read is split; what becomes of the steps is the same in any case. -/
theorem take_steps_run_eq (operations : List Operation) (files : FileSystem) (p : Pipeline)
    (hpolicy : p.policy = .continueOnError)
    (hsteps : ∀ step ∈ p.steps, step.enabled = true →
      step.filter ∈ [readStore, createGroup, deleteData])
    {context : RunContext} (hcontext : context.NeverStops) :
    let s := Store.after operations
    let reported := (p.run s context (RunState.start files)).1.1.steps
    let checked := (p.preflight files s).steps
    reported.map StepReport.status = checked.map StepReport.status
      ∧ ∀ done rest, p.steps = done ++ rest →
          Throughout files (fun step t => ¬step.IsSplit files t) done s →
          reported.take (done.length + 1) = checked.take (done.length + 1) := by
  intro s reported checked
  have hs : s.Sound := Store.sound_after operations
  have hreported : reported = (runSteps .continueOnError p.steps.length 0 p.steps s context
      (RunState.start files)).1.reports := by
    rw [← hpolicy]
    rfl
  rw [hreported]
  refine ⟨?_, fun done rest hp hwhole => ?_⟩
  -- What becomes of the steps does not depend on the stores, since no error ends the run.
  · have hbeside : Beside (fun _ _ => True) (fun _ _ => True) (checkSteps files 0 p.steps s)
        (scratch files p.steps s) (runSteps .continueOnError p.steps.length 0 p.steps s context
          (RunState.start files)).1 := by
      refine runSteps_simulates hcontext trivial (fun step hmem henabled s t _ _ state hstate => ?_)
        trivial (throughout_of_forall fun _ _ => trivial) (RunState.on_start files)
      exact ⟨halts_continueOnError _, trivial, trivial, steady_of_mem
        (List.mem_cons_of_mem _ (hsteps step hmem henabled)) s context state files hcontext hstate⟩
    exact hbeside.map_status_eq
  · have hprefix := take_reports_runSteps p.steps.length 0 hs (hp ▸ hsteps) hwhole hcontext
      (RunState.on_start files)
    rwa [← hp] at hprefix

/-- A group is created twice between the removal of what is not there and its own: two
of the steps fail, at the check as in the run. -/
theorem take_steps_run_eq_twice :
    let pathA : Arguments := [("data_path", .text "A")]
    let context : RunContext := ⟨⟨0, 0⟩, fun _ => false⟩
    let p := Pipeline.ofSteps "twice" .continueOnError
      [⟨deleteData, pathA, true, none⟩, ⟨createGroup, pathA, true, none⟩,
        ⟨createGroup, pathA, true, none⟩, ⟨deleteData, pathA, true, none⟩]
    let reported := (p.run (Store.after []) context (RunState.start ⟨[], []⟩)).1.1.steps
    p.policy = .continueOnError
      ∧ (∀ step ∈ p.steps, step.filter ∈ [readStore, createGroup, deleteData])
      ∧ context.NeverStops
      ∧ Throughout ⟨[], []⟩ (fun step t => ¬step.IsSplit ⟨[], []⟩ t) p.steps (Store.after [])
      ∧ (reported.take 5).map (fun report => report.findings.errors.map Diagnostic.code)
          = [[.pathNotFound], [], [.duplicatePath], []] := by
  intro pathA context p
  have hfilters : ∀ step ∈ p.steps, step.filter ∈ [readStore, createGroup, deleteData] := by
    simp [p, Pipeline.ofSteps]
  have hwhole : Throughout ⟨[], []⟩ (fun step t => ¬step.IsSplit ⟨[], []⟩ t) p.steps
      (Store.after []) := by
    have hcreate : createGroup ≠ readStore := fun he => absurd (congrArg Filter.name he) (by decide)
    have hdelete : deleteData ≠ readStore := fun he => absurd (congrArg Filter.name he) (by decide)
    exact ⟨fun _ h => hdelete h.1, fun _ h => hcreate h.1, fun _ h => hcreate h.1,
      fun _ h => hdelete h.1, trivial⟩
  obtain ⟨-, hreports⟩ := take_steps_run_eq [] ⟨[], []⟩ p rfl
    (fun step hstep _ => hfilters step hstep) (fun _ => rfl : context.NeverStops)
  refine ⟨rfl, hfilters, fun _ => rfl, hwhole, ?_⟩
  refine (congrArg (List.map _) (hreports p.steps [] (List.append_nil _).symm hwhole)).trans ?_
  decide +kernel

/-! ## After a split read

The difference between the two stores shows as soon as a step looks at an object that one
of them lacks. Taking out such an object is the simplest of these steps. -/

/-- A step that takes out the object at a path. -/
def removal (path : DataPath) : Step :=
  ⟨deleteData, [("data_path", .dataPath path)], true, none⟩

/-- A removal is found fault with if and only if nothing is at its path. -/
theorem hasErrors_found_removal (hs : s.Sound) (path : DataPath) :
    (found files s (removal path)).hasErrors = !(s.get? path).isSome := by
  have hselects : ∀ other, Selects (removal path).arguments other ↔ other = path := fun other => by
    constructor
    · exact fun h => (Except.ok.inj (show Except.ok path = _ from h.2)).symm
    · rintro rfl
      exact ⟨fun key hkey => List.mem_singleton.1 hkey, rfl⟩
  have hclean : (found files s (removal path)).hasErrors = false ↔ (s.get? path).isSome = true := by
    have henabled : (removal path).enabled = true := rfl
    rw [found, if_pos henabled, checkStep_eq hs straight_deleteData]
    refine (editsOne_deleteData.hasErrors_preflight_iff hs).trans ?_
    simp only [hselects, exists_eq_left]
    exact Iff.rfl
  rw [← Bool.not_eq_eq_eq_not, Bool.eq_iff_iff, Bool.not_eq_true', hclean]

/-- **After a split read the check is mistaken.** It goes on with the objects at paths that
were free, and the run goes on without them: a removal of any of them is passed by the
check, and refused in the run. -/
theorem hasErrors_reports_of_isSplit (hs : s.Sound) (henabled : step.enabled = true)
    (hsplit : step.IsSplit files s) {path : DataPath}
    (hannounced : ∃ edit ∈ step.announced files s, edit.path = path)
    (hfree : s.contains path = false) (name : String) {context : RunContext}
    (hcontext : context.NeverStops) :
    let p := Pipeline.ofSteps name .continueOnError [step, removal path]
    let reported := (p.run s context (RunState.start files)).1.1.steps
    let checked := (p.preflight files s).steps
    checked.map (·.findings.hasErrors) = [true, false]
      ∧ reported.map (·.findings.hasErrors) = [true, true] := by
  intro p reported checked
  obtain ⟨edit, hedit, rfl⟩ := hannounced
  have hfirst : (found files s step).hasErrors = true := by
    rw [found, if_pos henabled, checkStep_eq hs (hsplit.1 ▸ straight_readStore)]
    exact hasErrors_preflight_of_isSplit hs hsplit
  have hscratch : scratchStep files s step = (rehearse (step.announced files s) s).2 := by
    rw [scratchStep, if_pos henabled, checkStep_of_isSplit hs hsplit]
  have hfilters : ∀ other ∈ p.steps, other.enabled = true →
      other.filter ∈ [readStore, createGroup, deleteData] := by
    refine List.forall_mem_cons.2 ⟨fun _ => hsplit.1 ▸ List.mem_cons_self, ?_⟩
    exact List.forall_mem_singleton.2 fun _ => by simp [removal]
  constructor
  · show (checkSteps files 0 [step, removal edit.path] s).map _ = _
    have hnext : (found files (scratchStep files s step) (removal edit.path)).hasErrors = false := by
      rw [hasErrors_found_removal (sound_scratchStep hs files step), hscratch,
        (rehearse_of_isSplit hs hsplit).2 edit hedit hfree]
      rfl
    rw [checkSteps_cons, checkSteps_cons]
    exact congrArg₂ (fun first next => [first, next]) hfirst hnext
  · -- The run is back at the old store, where nothing is at the path.
    obtain ⟨s', state', hstate', -, hback, hreports⟩ := reports_runSteps_cons 2 0
      [removal edit.path] hs (hfilters step List.mem_cons_self) hcontext (RunState.on_start files)
    have hsame : s' = s := hback hsplit
    obtain ⟨_, _, -, -, -, hlast⟩ := reports_runSteps_cons 2 1 [] hs
      (hfilters (removal edit.path) (List.mem_cons_of_mem _ List.mem_cons_self)) hcontext hstate'
    rw [hsame] at hreports
    have hnext : (found files s (removal edit.path)).hasErrors = true := by
      rw [hasErrors_found_removal hs, ← hs.coherent.contains_eq, hfree]
      rfl
    have hall : reported = _ := hreports.trans (congrArg _ hlast)
    rw [hall]
    exact congrArg₂ (fun first next => [first, next]) hfirst hnext

/-- A container has groups `A` and `B`, and the store has a group `A` already: the check
passes the removal of `B`, which the run refuses since no read has created it. -/
theorem hasErrors_reports_of_isSplit_partly :
    let a := DataPath.single "A" (by decide)
    let b := DataPath.single "B" (by decide)
    let s := Store.after [.create a .group false]
    ∃ bytes, Container.decode bytes
        = .ok (Store.after [.create a .group false, .create b .group false])
      ∧ let files : FileSystem := ⟨[(["a.mpc"], .file bytes)], []⟩
        let read : Step := ⟨readStore, [("file_path", .text "a.mpc")], true, none⟩
        let p := Pipeline.ofSteps "partly" .continueOnError [read, removal b]
        let reported := (p.run s ⟨⟨0, 0⟩, fun _ => false⟩ (RunState.start files)).1.1.steps
        let checked := (p.preflight files s).steps
        read.IsSplit files s
          ∧ checked.map (·.findings.hasErrors) = [true, false]
          ∧ reported.map (·.findings.hasErrors) = [true, true] := by
  intro a b s
  let loaded := Store.after [.create a .group false, .create b .group false]
  -- All that matters of the bytes is what they are read as.
  obtain ⟨bytes, hdecode⟩ : ∃ bytes, Container.decode bytes = .ok loaded := by
    have hparse := Container.parse_pretty (d := ⟨Container.format, Container.version, ⟨0, 0⟩,
      Container.checksum [⟨a, .group⟩, ⟨b, .group⟩], [⟨a, .group⟩, ⟨b, .group⟩]⟩)
      ⟨by decide, Or.inl (by decide)⟩ rfl rfl rfl
    exact ⟨_, (Container.decode_of_parse hparse).trans rfl⟩
  refine ⟨bytes, hdecode, ?_⟩
  intro files read p reported checked
  have hread : files.read "a.mpc" = .ok bytes := rfl
  have hfile : (bind readStore.parameters read.arguments).1.filePath "file_path" = .ok "a.mpc" := rfl
  have hoverwrite : (bind readStore.parameters read.arguments).1.bool "overwrite" = .ok false := rfl
  have hplan := readStore_plan_eq (s := s) hfile hoverwrite hread hdecode
  have hedits : read.announced files s = ReadOptions.edits ⟨"a.mpc", false⟩ loaded :=
    congrArg Plan.edits hplan
  have hclean : (readStore.declare files s read.arguments).findings.hasErrors = false := by
    have hbound : (bind readStore.parameters read.arguments).2.hasErrors = false := rfl
    rw [Filter.declare, Filter.prepare_eq, if_neg (hbound ▸ Bool.false_ne_true), hplan]
    rfl
  have htaken : ∃ edit ∈ read.announced files s, s.contains edit.path = true := by
    rw [hedits]
    decide +kernel
  obtain ⟨edit, hedit, hpath⟩ : ∃ edit ∈ read.announced files s, edit.path = b := by
    rw [hedits]
    decide +kernel
  have hfree : s.contains b = false := by decide +kernel
  have hsplit : read.IsSplit files s := ⟨rfl, hclean, ⟨⟨"a.mpc", false⟩, rfl, rfl⟩,
    htaken, edit, hedit, hpath ▸ hfree⟩
  exact ⟨hsplit, hasErrors_reports_of_isSplit (Store.sound_after _) rfl hsplit
    ⟨edit, hedit, hpath⟩ hfree "partly" fun _ => rfl⟩

end Pipeline

end Meshwork
