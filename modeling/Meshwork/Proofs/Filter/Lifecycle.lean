import Meshwork.Filter.Basic
import Meshwork.Proofs.Edit.Commit

/-!
# The stages of an execution

Every filter has a plan and work of its own, and the stages around the two
are the same for all: arguments are bound, the plan is made and checked, the
work is done, and the edits that it asks for are committed. An execution may
end at each of them.

`Filter.Lifecycle` says what this guarantees, whatever the plan and the work
are, and also where the work asks for other edits than the plan announced.
What is found beforehand is all that an execution finds if there is an error
in it, and comes first otherwise. With an error among its findings, an
execution leaves all objects as they were; without one, it has made the edits
that its work asked for (`Filter.lifecycle_after`).
-/

namespace Meshwork

/-! ## Findings and their filters

Every stage names the filter in what it finds, and a finding that names one already keeps
it. Both ways in which findings are put together keep this. -/

/-- A diagnostic that names a filter keeps it. -/
theorem Diagnostic.attributed_of_isSome {d : Diagnostic} (h : d.filter.isSome) (name : String) :
    d.attributed name = d := by
  obtain ⟨code, message, filter⟩ := d
  obtain ⟨own, rfl⟩ := Option.isSome_iff_exists.1 h
  rfl

namespace Findings

/-- A diagnostic is among the findings as an error or as a warning. -/
instance : Membership Diagnostic Findings := ⟨fun f d => d ∈ f.errors ∨ d ∈ f.warnings⟩

variable {a b f : Findings} {d : Diagnostic} {name : String}

theorem mem_iff : d ∈ f ↔ d ∈ f.errors ∨ d ∈ f.warnings := Iff.rfl

theorem mem_append : d ∈ a ++ b ↔ d ∈ a ∨ d ∈ b := by
  simp only [mem_iff, errors_append, warnings_append, List.mem_append]
  tauto

theorem hasErrors_append : (a ++ b).hasErrors = (a.hasErrors || b.hasErrors) := by
  obtain ⟨errors, warnings⟩ := a
  cases errors <;> rfl

theorem attributed_append :
    (a ++ b).attributed name = a.attributed name ++ b.attributed name := by
  show Findings.mk _ _ = Findings.mk _ _
  rw [errors_append, warnings_append, List.map_append, List.map_append]
  rfl

/-- **Findings with a filter all name one.** Those that name none are given the name of the filter
at hand. -/
theorem isSome_filter_of_mem_attributed (h : d ∈ f.attributed name) : d.filter.isSome := by
  rcases h with h | h
  · obtain ⟨own, -, rfl⟩ := List.mem_map.1 h
    rfl
  · obtain ⟨own, -, rfl⟩ := List.mem_map.1 h
    rfl

/-- **A finding that names a filter stays** when the others are given one. So attributing findings
twice keeps the names that were given first. -/
theorem mem_attributed_of_isSome (h : d ∈ f) (hd : d.filter.isSome) : d ∈ f.attributed name := by
  have hself := Diagnostic.attributed_of_isSome hd name
  rcases h with h | h
  · exact Or.inl (List.mem_map.2 ⟨d, h, hself⟩)
  · exact Or.inr (List.mem_map.2 ⟨d, h, hself⟩)

/-- Findings that all name a filter stay as they are. -/
theorem attributed_eq_self (h : ∀ d ∈ f, d.filter.isSome) : f.attributed name = f := by
  have hself : ∀ l : List Diagnostic, (∀ d ∈ l, d.filter.isSome) → l.map (.attributed name) = l :=
    fun l hl => (List.map_congr_left fun d hd =>
      Diagnostic.attributed_of_isSome (hl d hd) name).trans (List.map_id l)
  rw [attributed, hself _ fun d hd => h d (Or.inl hd), hself _ fun d hd => h d (Or.inr hd)]

end Findings

/-! ## Computations within a run

A computation takes a context and a state, and gives a value and a state. These are the
equations that run it. -/

namespace Run

variable {α β : Type} (context : RunContext) (state : RunState)

theorem pure_apply (value : α) : (Pure.pure value : Run α) context state = (value, state) := rfl

theorem bind_apply (first : Run α) (next : α → Run β) :
    (first >>= next) context state
      = next (first context state).1 context (first context state).2 := rfl

theorem ite_apply (condition : Prop) [Decidable condition] (run other : Run α) :
    (if condition then run else other) context state
      = if condition then run context state else other context state := by
  split <;> rfl

theorem files_apply : files context state = (state.files, state) := rfl

end Run

namespace Filter

/-! ## The stages one by one

Each stage may end the execution. Their equations are put one behind another here, and
what is found before the work is compared with what is found when nothing is executed. -/

/-- Arguments that cannot be bound end it, and for others the plan is made. -/
theorem prepare_eq (f : Filter) (files : FileSystem) (s : Store) (args : Arguments) :
    f.prepare files s args = ((bind f.parameters args).1,
      if (bind f.parameters args).2.hasErrors then
        .failed ((bind f.parameters args).2.attributed f.name)
      else
        let plan := f.plan files s (bind f.parameters args).1
        ⟨((bind f.parameters args).2 ++ plan.findings).attributed f.name, plan.edits⟩) := by
  rw [prepare]
  obtain ⟨bound, findings⟩ := bind f.parameters args
  dsimp only
  split <;> rfl

/-- **An execution that is not stopped**, stage by stage. Here the three stages are seen at once:
what is found beforehand, the work on the bound arguments, and the edits that are made. -/
theorem execute_apply (f : Filter) (s : Store) (args : Arguments) {context : RunContext}
    {state : RunState} (hrunning : (Run.isStopped context state).1 = false) :
    (f.execute s args context state).1 =
      let before := f.preflight state.files s args
      let work := f.perform s (bind f.parameters args).1
      let outcome := (work context (Run.isStopped context state).2).1
      let found := before ++ outcome.findings.attributed f.name
      if before.hasErrors then (before, s)
      else if found.hasErrors then (found, s)
      else f.conclude s found outcome.edits := by
  have hbound : (f.prepare state.files s args).1 = (bind f.parameters args).1 := by rw [prepare_eq]
  have hfiles : (Run.isStopped context state).2.files = state.files := rfl
  rw [execute, ← hbound]
  simp only [Run.bind_apply, Run.ite_apply, Run.pure_apply, Run.files_apply, hrunning, hfiles,
    Bool.false_eq_true, if_false, apply_ite Prod.fst]
  rfl

/-- **An execution that is stopped** says that and does nothing. The first thing that an execution
does is to ask, so this takes one question and no more. -/
theorem execute_of_stopped (f : Filter) (s : Store) (args : Arguments) {context : RunContext}
    {state : RunState} (hstopped : (Run.isStopped context state).1 = true) :
    f.execute s args context state
      = ((f.stoppedFindings, s), (Run.isStopped context state).2) := by
  rw [execute]
  simp only [Run.bind_apply, Run.ite_apply, hstopped]
  rfl

/-- What an execution that is not stopped leaves is what its work leaves, if it
begins. -/
theorem execute_state (f : Filter) (s : Store) (args : Arguments) {context : RunContext}
    {state : RunState} (hrunning : (Run.isStopped context state).1 = false) :
    (f.execute s args context state).2 =
      let work := f.perform s (bind f.parameters args).1
      if (f.preflight state.files s args).hasErrors then (Run.isStopped context state).2
      else (work context (Run.isStopped context state).2).2 := by
  have hbound : (f.prepare state.files s args).1 = (bind f.parameters args).1 := by rw [prepare_eq]
  have hfiles : (Run.isStopped context state).2.files = state.files := rfl
  rw [execute, ← hbound]
  simp only [Run.bind_apply, Run.ite_apply, Run.pure_apply, Run.files_apply, hrunning, hfiles,
    Bool.false_eq_true, if_false, apply_ite Prod.snd, ite_self]
  rfl

variable {f : Filter} {files : FileSystem} {s : Store} {args : Arguments}

/-- Every finding of the plan names a filter. -/
theorem isSome_filter_of_mem_declare {d : Diagnostic}
    (h : d ∈ (f.declare files s args).findings) : d.filter.isSome := by
  rw [declare, prepare_eq] at h
  split at h
  · exact Findings.isSome_filter_of_mem_attributed h
  · exact Findings.isSome_filter_of_mem_attributed h

/-- What is found of the plan comes first among what is found beforehand. -/
theorem mem_preflight_of_mem_declare {d : Diagnostic}
    (h : d ∈ (f.declare files s args).findings) : d ∈ f.preflight files s args := by
  rw [preflight, checkPlan]
  split
  · exact h
  · exact Findings.mem_append.2 (Or.inl h)

/-- **Everything that is found beforehand names a filter.** They are attributed as a whole,
whichever stage they come from. -/
theorem isSome_filter_of_mem_preflight {d : Diagnostic} (h : d ∈ f.preflight files s args) :
    d.filter.isSome := by
  rw [preflight, checkPlan] at h
  split at h
  · exact isSome_filter_of_mem_declare h
  · rcases Findings.mem_append.1 h with h | h
    · exact isSome_filter_of_mem_declare h
    · exact Findings.isSome_filter_of_mem_attributed h

/-- What the plan found under a name of its own is found beforehand. -/
theorem mem_preflight_of_mem_plan {d : Diagnostic}
    (hbound : (bind f.parameters args).2.hasErrors = false)
    (h : d ∈ (f.plan files s (bind f.parameters args).1).findings) (hd : d.filter.isSome) :
    d ∈ f.preflight files s args := by
  refine mem_preflight_of_mem_declare ?_
  rw [declare, prepare_eq, hbound]
  exact Findings.mem_attributed_of_isSome (Findings.mem_append.2 (Or.inr h)) hd

/-- The commit at the end adds an error if it fails, and nothing otherwise. -/
theorem conclude_eq {findings : Findings} (hnamed : ∀ d ∈ findings, d.filter.isSome)
    (edits : List Edit) :
    f.conclude s findings edits = match commit edits s with
      | (.ok _, s') => (findings, s')
      | (.error e, s') => (findings ++ ⟨[⟨.internal,
          s!"could not apply staged changes: {e.message}", some f.name⟩], []⟩, s') := by
  rw [conclude]
  obtain ⟨_ | _, _⟩ := commit edits s
  · dsimp only
    rw [Findings.attributed_append, Findings.attributed_eq_self hnamed]
    rfl
  · rfl

/-! ## The lifecycle

An execution that is not stopped ends in one of a few ways. Each guarantee is then shown
end by end, where it holds for a simple reason. -/

/-- **How an execution may end.** The `outcome` is what the work comes to, with its findings and
the edits that it asks for. The findings of the work are attributed to the filter before they are
put behind the others. -/
inductive Ends (f : Filter) (files : FileSystem) (s : Store) (args : Arguments)
    (outcome : Outcome) : Findings × Store → Prop where
  /-- An error is found beforehand. -/
  | refused (hbefore : (f.preflight files s args).hasErrors) :
    Ends f files s args outcome (f.preflight files s args, s)
  /-- The work finds an error, and its edits are dropped. -/
  | dropped (hbefore : ¬(f.preflight files s args).hasErrors)
      (hwork : outcome.findings.hasErrors) :
    Ends f files s args outcome
      (f.preflight files s args ++ outcome.findings.attributed f.name, s)
  /-- The edits are made. -/
  | made (hbefore : ¬(f.preflight files s args).hasErrors)
      (hwork : ¬outcome.findings.hasErrors) {s' : Store}
      (hcommit : commit outcome.edits s = (.ok outcome.edits.length, s'))
      (hchange : (Edit.changeEach outcome.edits).apply s = (.ok (), s')) :
    Ends f files s args outcome
      (f.preflight files s args ++ outcome.findings.attributed f.name, s')
  /-- An edit is refused, and those before it are undone. -/
  | failed (hbefore : ¬(f.preflight files s args).hasErrors)
      (hwork : ¬outcome.findings.hasErrors) {e : CommitError} {s' : Store}
      (hcommit : commit outcome.edits s = (.error e, s')) (hget : s'.get? = s.get?)
      (hcontents : s'.contents = s.contents) :
    Ends f files s args outcome
      (f.preflight files s args ++ outcome.findings.attributed f.name
        ++ ⟨[⟨.internal, s!"could not apply staged changes: {e.message}", some f.name⟩], []⟩, s')

/-- **An execution of a sound store that is not stopped ends in one of these ways.** The cases
exclude each other, so that the end is determined by the findings. -/
theorem ends_execute (f : Filter) (hs : s.Sound) (args : Arguments) {context : RunContext}
    {state : RunState} (hrunning : (Run.isStopped context state).1 = false) :
    f.Ends state.files s args
      (f.perform s (bind f.parameters args).1 context (Run.isStopped context state).2).1
      (f.execute s args context state).1 := by
  rw [f.execute_apply s args hrunning]
  dsimp only
  generalize (f.perform s (bind f.parameters args).1 context
    (Run.isStopped context state).2).1 = outcome
  -- The stages in order: what is found beforehand ends the execution, then what the work reports,
  -- and then the commit.
  by_cases hbefore : (f.preflight state.files s args).hasErrors
  · rw [if_pos hbefore]
    exact .refused hbefore
  rw [if_neg hbefore, Findings.hasErrors_append, Findings.hasErrors_attributed,
    Bool.eq_false_iff.2 hbefore, Bool.false_or]
  by_cases hwork : outcome.findings.hasErrors
  · rw [if_pos hwork]
    exact .dropped hbefore hwork
  have hnamed : ∀ d ∈ f.preflight state.files s args ++ outcome.findings.attributed f.name,
      d.filter.isSome := fun d hd => (Findings.mem_append.1 hd).elim
    isSome_filter_of_mem_preflight Findings.isSome_filter_of_mem_attributed
  rw [if_neg hwork, conclude_eq hnamed]
  rcases hs.commit outcome.edits with ⟨s', hcommit, -, hchange⟩ | ⟨e, s', hcommit, hs', hget⟩
  · rw [hcommit]
    exact .made hbefore hwork hcommit hchange
  · rw [hcommit]
    exact .failed hbefore hwork hcommit hget (hs'.coherent.contents_eq hs.coherent hget)

/-- **What the stages guarantee.** The `result` is that of the execution, with its findings and
the store that it leaves. Nothing is asked of the filter: its plan and its work may be any
functions. -/
structure Lifecycle (f : Filter) (files : FileSystem) (s : Store) (args : Arguments)
    (outcome : Outcome) (result : Findings × Store) : Prop where
  /-- With an error that is found beforehand, nothing else is found, and
  nothing is done. -/
  refused : (f.preflight files s args).hasErrors → result = (f.preflight files s args, s)
  /-- Otherwise the findings of the work come next, and they are all if its
  edits are dropped or made. -/
  findings : ¬(f.preflight files s args).hasErrors →
    outcome.findings.hasErrors ∨ (commit outcome.edits s).1.isOk →
      result.1 = f.preflight files s args ++ outcome.findings.attributed f.name
  /-- If the edits cannot be made, this is one error more. -/
  failure : ¬(f.preflight files s args).hasErrors → ¬outcome.findings.hasErrors →
    ∀ e, (commit outcome.edits s).1 = .error e →
      result.1 = f.preflight files s args ++ outcome.findings.attributed f.name
        ++ ⟨[⟨.internal, s!"could not apply staged changes: {e.message}", some f.name⟩], []⟩
  /-- With an error, all objects are what they were. -/
  kept : result.1.hasErrors → result.2.get? = s.get? ∧ result.2.contents = s.contents
  /-- Without an error, the edits were made one after another. -/
  made : ¬result.1.hasErrors → (Edit.changeEach outcome.edits).apply s = (.ok (), result.2)
  /-- Every finding names a filter. -/
  named : ∀ d, d ∈ f.preflight files s args ∨ d ∈ result.1 → d.filter.isSome
  /-- What the plan found under a name of its own stays. -/
  planNames : (bind f.parameters args).2.hasErrors = false →
    ∀ d ∈ (f.plan files s (bind f.parameters args).1).findings, d.filter.isSome →
      d ∈ f.preflight files s args ∧ d ∈ result.1
  /-- What the work found under a name of its own stays. -/
  workNames : ¬(f.preflight files s args).hasErrors →
    ∀ d ∈ outcome.findings, d.filter.isSome → d ∈ result.1

namespace Ends

variable {outcome : Outcome} {result : Findings × Store} {d : Diagnostic}

/-- What is found beforehand is found by the execution. -/
theorem mem_of_mem_preflight (h : f.Ends files s args outcome result)
    (hd : d ∈ f.preflight files s args) : d ∈ result.1 := by
  cases h with
  | refused => exact hd
  | dropped | made => exact Findings.mem_append.2 (Or.inl hd)
  | failed => exact Findings.mem_append.2 (Or.inl (Findings.mem_append.2 (Or.inl hd)))

/-- What the work finds is found by the execution. -/
theorem mem_of_mem_work (h : f.Ends files s args outcome result)
    (hbefore : ¬(f.preflight files s args).hasErrors)
    (hd : d ∈ outcome.findings.attributed f.name) : d ∈ result.1 := by
  cases h with
  | refused h => exact absurd h hbefore
  | dropped | made => exact Findings.mem_append.2 (Or.inr hd)
  | failed => exact Findings.mem_append.2 (Or.inl (Findings.mem_append.2 (Or.inr hd)))

/-- Everything that an execution finds names a filter. -/
theorem isSome_filter_of_mem (h : f.Ends files s args outcome result) (hd : d ∈ result.1) :
    d.filter.isSome := by
  have hfound : d ∈ f.preflight files s args ++ outcome.findings.attributed f.name →
      d.filter.isSome := fun hd => (Findings.mem_append.1 hd).elim
    isSome_filter_of_mem_preflight Findings.isSome_filter_of_mem_attributed
  cases h with
  | refused => exact isSome_filter_of_mem_preflight hd
  | dropped | made => exact hfound hd
  | failed =>
    rcases Findings.mem_append.1 hd with hd | hd | hd
    · exact hfound hd
    · rw [List.mem_singleton.1 hd]
      rfl
    · cases hd

/-- **Each of the ends has the properties of an execution.** Every clause is settled for the ends
that it is about, and the others contradict what it assumes. -/
theorem lifecycle (h : f.Ends files s args outcome result) :
    f.Lifecycle files s args outcome result where
  refused hbefore := by
    cases h with
    | refused => rfl
    | dropped h | made h | failed h => exact absurd hbefore h
  findings hbefore hcases := by
    cases h with
    | refused h => exact absurd h hbefore
    | dropped | made => rfl
    | failed _ hwork hcommit =>
      rcases hcases with hfound | hok
      · exact absurd hfound hwork
      · rw [hcommit] at hok
        cases hok
  failure hbefore hwork e he := by
    cases h with
    | refused h => exact absurd h hbefore
    | dropped _ h => exact absurd h hwork
    | made _ _ hcommit =>
      rw [hcommit] at he
      cases he
    | failed _ _ hcommit =>
      rw [hcommit] at he
      rw [Except.error.inj he]
  kept herrors := by
    cases h with
    | refused | dropped => exact ⟨rfl, rfl⟩
    | failed _ _ _ hget hcontents => exact ⟨hget, hcontents⟩
    | made hbefore hwork =>
      rw [Findings.hasErrors_append, Findings.hasErrors_attributed, Bool.or_eq_true] at herrors
      exact (herrors.elim hbefore hwork).elim
  made herrors := by
    rw [Bool.not_eq_true] at herrors
    cases h with
    | refused h => exact absurd (h.symm.trans herrors) nofun
    | dropped _ h =>
      rw [Findings.hasErrors_append, Findings.hasErrors_attributed, h, Bool.or_true] at herrors
      cases herrors
    | made _ _ _ hchange => exact hchange
    | failed =>
      rw [Findings.hasErrors_append] at herrors
      exact absurd (Bool.or_eq_false_iff.1 herrors).2 nofun
  named d hd := hd.elim isSome_filter_of_mem_preflight h.isSome_filter_of_mem
  planNames hbound d hd hname :=
    have hbefore := mem_preflight_of_mem_plan hbound hd hname
    ⟨hbefore, h.mem_of_mem_preflight hbefore⟩
  workNames hbefore d hd hname :=
    h.mem_of_mem_work hbefore (Findings.mem_attributed_of_isSome hd hname)

end Ends

/-- **The stages guarantee this of every filter**, on every store that operations
lead to and whatever the arguments are, if it is not told to stop before it
began. -/
theorem lifecycle_after (f : Filter) (operations : List Operation) (args : Arguments)
    (context : RunContext) (state : RunState)
    (hrunning : (Run.isStopped context state).1 = false) :
    let s := Store.after operations
    let work := f.perform s (bind f.parameters args).1
    f.Lifecycle state.files s args (work context (Run.isStopped context state).2).1
      (f.execute s args context state).1 :=
  (f.ends_execute (Store.sound_after operations) args hrunning).lifecycle

/-- Work that takes out what is not there, though the plan announces nothing: the
one error is that the edit cannot be made, and nothing is changed. -/
theorem lifecycle_after_missing :
    let f : Filter := ⟨⟨"prune", .ofNat 1, "Prune", [], 1⟩, [], fun _ _ _ => ⟨.none, []⟩,
      fun _ _ => pure ⟨.none, [.remove (.single "A" (by decide))]⟩⟩
    let context : RunContext := ⟨⟨0, 0⟩, fun _ => false⟩
    let state := RunState.start ⟨[], []⟩
    let result := (f.execute (Store.after []) [] context state).1
    (Run.isStopped context state).1 = false
      ∧ result.1.errors.map Diagnostic.code = [.internal] ∧ result.2.contents = [] := by
  intro f context state result
  have h := lifecycle_after f [] [] context state rfl
  -- Nothing is found beforehand and the work reports nothing, so it is the commit that fails.
  have hbefore : f.preflight state.files (Store.after []) [] = .none := rfl
  have hresult := h.failure (by rw [hbefore]; exact nofun) nofun _ rfl
  rw [hbefore] at hresult
  refine ⟨rfl, ?_, (h.kept ?_).2⟩
  · rw [hresult]
    rfl
  · rw [hresult]
    rfl

end Filter

end Meshwork
