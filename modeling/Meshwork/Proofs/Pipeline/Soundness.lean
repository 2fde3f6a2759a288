import Meshwork.Proofs.Pipeline.Simulation

/-!
# What a check promises

A check rehearses the plans of a pipeline, with empty geometries in place of those
that imports will bring in. If it finds no error, a run that nobody stops comes to
its end without an error, whatever the policy, and leaves objects of the same kinds
at the same paths (`Pipeline.run_of_isValid`). What the check cannot know is what the
mesh files hold, so they must hold surfaces.

The stores of the run and of the check are alike all along: which edits they accept
depends on the outlines of objects only.

The relation between the stores is that of `Alike`, and the relation between the findings
is that the run finds none; both go into the simulation of a check by a run. That each
filter keeps the stores alike is its faithfulness.
-/

namespace Meshwork

open Meshwork.Filter

/-- **What a step imports is a surface**, if it is an import. The file is read where the options
say, which are those of the bound arguments. -/
def Step.ImportsSurface (files : FileSystem) (step : Step) : Prop :=
  step.filter = importGeometry →
    ∀ o, ImportOptions.ofArguments (bind importGeometry.parameters step.arguments).1 = .ok o →
      ∃ mesh, readMesh files o = .ok mesh ∧ mesh.IsSurface

namespace Pipeline

variable {files : FileSystem} {step : Step} {s t : Store}

/-- **The filters that change a store are faithful**, the import for a surface. Each of them comes
from what was proved of the filter, and an export is left out, as it writes files. -/
theorem faithful_of_mem (hfiles : files.IsSized)
    (hfilter : step.filter ∈ [importGeometry, readStore, createGroup, deleteData])
    (hsurface : step.ImportsSurface files)
    (hbound : (bind step.filter.parameters step.arguments).2.hasErrors = false) :
    step.filter.Faithful files (bind step.filter.parameters step.arguments).1 := by
  obtain ⟨filter, arguments, enabled, label⟩ := step
  simp only [List.mem_cons, List.not_mem_nil, or_false] at hfilter
  rcases hfilter with rfl | rfl | rfl | rfl
  · exact faithful_importGeometry hfiles
      (provides_bind ImportOptions.regular_importGeometry.keys hbound) (hsurface rfl)
  · exact faithful_readStore (provides_bind straight_readStore.regular.keys hbound)
  · exact faithful_createGroup (provides_bind straight_createGroup.regular.keys hbound)
  · exact faithful_deleteData (provides_bind straight_deleteData.regular.keys hbound)

/-- The work of these filters is steady. -/
theorem steady_of_mem
    (hfilter : step.filter ∈ [importGeometry, readStore, createGroup, deleteData]) (s : Store) :
    (step.filter.execute s step.arguments).Steady := by
  refine steady_execute fun bound => ?_
  simp only [List.mem_cons, List.not_mem_nil, or_false] at hfilter
  rcases hfilter with h | h | h | h <;> rw [h]
  · exact steady_performImport bound
  · exact steady_performRead bound
  · exact .of_pure _
  · exact .of_pure _

/-- What a step is that is checked without errors. -/
theorem checkStep_of_hasErrors_eq_false (h : (checkStep files step t).1.hasErrors = false) :
    let plan := step.filter.declare files t step.arguments
    plan.findings.hasErrors = false ∧ (rehearse plan.edits t).1.hasErrors = false
      ∧ (checkStep files step t).2 = (rehearse plan.edits t).2 := by
  intro plan
  rw [checkStep] at h ⊢
  by_cases hplan : plan.findings.hasErrors = true
  · rw [if_pos hplan] at h
    exact absurd (hplan.symm.trans h) nofun
  · rw [if_neg hplan] at h ⊢
    dsimp only at h ⊢
    rw [Findings.hasErrors_append, Findings.hasErrors_attributed, Bool.or_eq_false_iff] at h
    exact ⟨h.1, h.2, rfl⟩

/-- **Sound stores that are alike.** They have the same paths, and the objects there may differ in
what an import reads from its file. -/
def Alike (s t : Store) : Prop := s.Sound ∧ t.Sound ∧ PathMap.Alike t.get? s.get?

/-- **A step that is checked without errors is executed without errors**, and the stores stay alike.
The stores differ where a check has an empty geometry in the place of the one that is read. -/
theorem execute_of_checkStep (hfiles : files.IsSized)
    (hfilter : step.filter ∈ [importGeometry, readStore, createGroup, deleteData])
    (hsurface : step.ImportsSurface files) (halike : Alike s t)
    (hcheck : (checkStep files step t).1.hasErrors = false) {context : RunContext}
    {state : RunState} (hcontext : context.NeverStops) (hstate : state.On files) :
    let executed := (step.filter.execute s step.arguments context state).1
    executed.1.hasErrors = false ∧ Alike executed.2 (checkStep files step t).2 := by
  obtain ⟨hs, ht, hmap⟩ := halike
  obtain ⟨hplan, hrehearsed, hstore⟩ := checkStep_of_hasErrors_eq_false hcheck
  have hfaithful := faithful_of_mem hfiles hfilter hsurface
    (declare_of_hasErrors_eq_false hplan).1
  obtain ⟨hclean, hsound, hmap'⟩ :=
    hfaithful.execute hs ht hmap hplan hrehearsed hcontext hstate
  rw [hstore]
  exact ⟨hclean, hsound, (ht.rehearse_cases _).1, hmap'⟩

/-- **A pipeline that is checked without errors is run without errors**, from every
store that operations lead to and under either policy, if nobody stops the run and
the imported files hold surfaces: all enabled steps are executed, and the final
store has objects of the same kinds at the same paths as the store that the check
ends with. -/
theorem run_of_isValid (operations : List Operation) (p : Pipeline) (hfiles : files.IsSized)
    (hsteps : ∀ step ∈ p.steps, step.enabled = true →
      step.filter ∈ [importGeometry, readStore, createGroup, deleteData]
        ∧ step.ImportsSurface files)
    {context : RunContext} (hcontext : context.NeverStops)
    (hvalid : (p.preflight files (Store.after operations)).isValid = true) :
    let s := Store.after operations
    let result := (p.run s context (RunState.start files)).1
    result.1.phase = .completed ∧ result.1.findings.hasErrors = false
      ∧ result.1.steps.map StepReport.status
          = p.steps.map (fun step => if step.enabled then .executed else .skipped)
      ∧ (∀ report ∈ result.1.steps, report.findings.hasErrors = false)
      ∧ ∀ path, (result.2.get? path).map DataObject.kind
          = ((scratch files p.steps s).get? path).map DataObject.kind := by
  intro s result
  have hs : s.Sound := Store.sound_after operations
  rw [PreflightReport.isValid, Bool.not_eq_true'] at hvalid
  have hchecked := (hasErrors_allFindings_eq_false_iff _).1 hvalid
  -- The check and the run go side by side: each step is clean in both, and leaves stores that are
  -- alike.
  have hbeside : Beside Alike (fun found _ => found.hasErrors = false)
      (checkSteps files 0 p.steps s) (scratch files p.steps s)
      (runSteps p.policy p.steps.length 0 p.steps s context (RunState.start files)).1 :=
    runSteps_simulates hcontext rfl
      (fun step hmem henabled s t halike hcheck state hstate => by
        obtain ⟨hfilter, hsurface⟩ := hsteps step hmem henabled
        obtain ⟨hclean, hnext⟩ :=
          execute_of_checkStep hfiles hfilter hsurface halike hcheck hcontext hstate
        refine ⟨?_, hclean, hnext, steady_of_mem hfilter s context state files hcontext hstate⟩
        rw [halts, hclean]
        rfl)
      ⟨hs, hs, .refl _⟩ (throughout_of_checkSteps hchecked) (RunState.on_start files)
  obtain ⟨-, -, hmap⟩ := hbeside.store
  -- That the reports are clean is half of what the simulation says of them.
  have hclean : ∀ report ∈ result.1.steps, report.findings.hasErrors = false :=
    ((List.forall₂_and_left (R := fun _ _ => True) _ _).1
      (hbeside.reports.imp fun _ _ h => ⟨h.2, trivial⟩)).1
  refine ⟨if_neg (hbeside.completed ▸ Bool.false_ne_true), ?_, ?_, hclean, hmap.symm.map_kind_eq⟩
  · exact (congrArg Findings.hasErrors hbeside.findings).trans
      ((hasErrors_allFindings_eq_false_iff _).2 hclean)
  · exact hbeside.map_status_eq.trans (map_status_checkSteps files 0 p.steps s)

/-- A group is created and a triangle imported into it: the check finds no error, and
the run leaves a geometry there. -/
theorem run_of_isValid_import :
    let contents := bytesOf ("solid t\nfacet normal 0 0 1\nouter loop\n"
      ++ "vertex 0 0 0\nvertex 1 0 0\nvertex 0 1 0\nendloop\nendfacet\nendsolid t\n")
    let files : FileSystem := ⟨[(["t.stl"], .file contents)], []⟩
    let context : RunContext := ⟨⟨0, 0⟩, fun _ => false⟩
    let p := Pipeline.ofSteps "import" .haltOnError
      [⟨createGroup, [("data_path", .text "A")], true, none⟩,
        ⟨importGeometry, [("file_path", .text "t.stl"), ("geometry_path", .text "A/T")], true, none⟩]
    let result := (p.run (Store.after []) context (RunState.start files)).1
    files.IsSized ∧ (∀ step ∈ p.steps, step.ImportsSurface files) ∧ context.NeverStops
      ∧ (p.preflight files (Store.after [])).isValid = true ∧ result.1.phase = .completed
      ∧ (result.2.get? ⟨["A", "T"], by decide, by decide⟩).map DataObject.kind = some .geometry := by
  intro contents files context p
  let o : ImportOptions :=
    { file := "t.stl"
      geometry := ⟨["A", "T"], by decide, by decide⟩
      vertexMatrix := ⟨["A", "T", "Vertex Data"], by decide, by decide⟩
      faceMatrix := ⟨["A", "T", "Face Data"], by decide, by decide⟩
      normals := ⟨["A", "T", "Face Data", "Face Normals"], by decide, by decide⟩
      scale := .one
      applyScale := false }
  let mesh : Mesh :=
    ⟨[⟨⟨0⟩, ⟨0⟩, ⟨0⟩⟩, ⟨⟨0x3f800000⟩, ⟨0⟩, ⟨0⟩⟩, ⟨⟨0⟩, ⟨0x3f800000⟩, ⟨0⟩⟩], [⟨0, 1, 2⟩],
      some [⟨⟨0⟩, ⟨0⟩, ⟨0x3f800000⟩⟩]⟩
  have hsized : files.IsSized := FileSystem.isSized_of_entries fun place bytes hmem => by
    obtain ⟨-, rfl⟩ : place = ["t.stl"] ∧ bytes = contents := by simpa [files] using hmem
    decide +kernel
  have hmesh : readMesh files o = .ok mesh := by decide +kernel
  have hgroup : (createGroup ∈ [importGeometry, readStore, createGroup, deleteData])
      ∧ createGroup.name ≠ importGeometry.name := ⟨by simp, by decide⟩
  have hsurfaces : ∀ step ∈ p.steps, step.ImportsSurface files := by
    refine List.forall_mem_cons.2 ⟨fun he => absurd (congrArg Filter.name he) hgroup.2,
      List.forall_mem_singleton.2 fun _ o' ho' => ?_⟩
    obtain rfl : o = o' := Except.ok.inj ho'
    exact ⟨mesh, hmesh, Mesh.isSurface_of_length_le (by decide) (by decide)⟩
  have hfilters : ∀ step ∈ p.steps,
      step.filter ∈ [importGeometry, readStore, createGroup, deleteData] :=
    List.forall_mem_cons.2 ⟨hgroup.1, List.forall_mem_singleton.2 List.mem_cons_self⟩
  have hvalid : (p.preflight files (Store.after [])).isValid = true := by decide +kernel
  obtain ⟨hphase, -, -, -, hkinds⟩ := run_of_isValid [] p hsized
    (fun step hstep _ => ⟨hfilters step hstep, hsurfaces step hstep⟩)
    (fun _ => rfl : context.NeverStops) hvalid
  refine ⟨hsized, hsurfaces, fun _ => rfl, hvalid, hphase, (hkinds _).trans ?_⟩
  decide +kernel

end Pipeline

end Meshwork
