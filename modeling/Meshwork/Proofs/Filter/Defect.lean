import Meshwork.Filter.Builtin
import Meshwork.Proofs.Filter.Import
import Meshwork.Proofs.Filter.Straight

/-!
# When a filter of the library reports a defect

The filters of the library announce what they will do, and the announcement is
checked. For four of them nothing can go wrong afterwards that is not said as an
error of another kind. The import is the exception: the check knows what the
object above the geometry must be, but of the groups on the way it only asks that
no array is among the objects. A group that is missing beneath an attribute
matrix, or under a name that a geometry registers, passes the check and is refused
when the edits are made. That is the one defect that is ever reported
(`Filter.exists_internal_iff`).
-/

namespace Meshwork

/-! ## Exporting

An export changes files and not the store, so it asks for no edits, and there is nothing
that a check could have missed. That its errors are of the proper kind is proved along its
work, step by step. -/

namespace Run

variable {α β : Type}

/-- **Whatever a run meets**, it gives a value as said. The work of a filter depends on the run
only by what it reads and whether it is stopped, so it often suffices to know this much. -/
def Always (post : α → Prop) (run : Run α) : Prop := ∀ context state, post (run context state).1

namespace Always

variable {post : α → Prop} {post' : β → Prop}

theorem of_pure {value : α} (h : post value) : Always post (Pure.pure value : Run α) := fun _ _ => h

theorem bind {first : Run α} {next : α → Run β} (hfirst : Always post first)
    (hnext : ∀ value, post value → Always post' (next value)) : Always post' (first >>= next) :=
  fun context state => hnext _ (hfirst context state) context _

theorem of_withFiles {work : FileSystem → α × FileSystem} (h : ∀ fs, post (work fs).1) :
    Always post (Run.withFiles work) := fun _ state => h state.files

/-- Nothing is said about the value. -/
theorem of_any (run : Run α) : Always (fun _ => True) run := fun _ _ => trivial

end Always

end Run

/-- Work that asks for no edits, and reports no defect. -/
def Outcome.IsQuiet (outcome : Outcome) : Prop := outcome.edits = [] ∧ outcome.findings.Regular

namespace Filter

theorem writeFailure_refuses (path : String) (e : FileError) :
    (writeFailure path e).hasErrors = true ∧ (writeFailure path e).Regular :=
  ⟨rfl, Findings.regular_ofError (by decide) _⟩

theorem isQuiet_failed {findings : Findings} (h : findings.hasErrors = true ∧ findings.Regular) :
    Outcome.IsQuiet (.failed findings) := ⟨rfl, h.2⟩

theorem isQuiet_written {result : Except Findings Unit} (h : Regularly (fun _ => True) result) :
    Outcome.IsQuiet (written result) := by
  cases result with
  | error findings => exact isQuiet_failed h
  | ok _ => exact ⟨rfl, Findings.regular_none⟩

theorem regularly_makeDirectoryOf (path : String) (fs : FileSystem) :
    Regularly (fun _ => True) (makeDirectoryOf path fs).1 := by
  rw [makeDirectoryOf]
  split
  · trivial
  · exact writeFailure_refuses _ _

theorem always_stageFile (path : String) (contents : Bytes) :
    Run.Always (Regularly fun _ => True) (stageFile path contents) := by
  refine (Run.Always.of_any _).bind fun _ _ => Run.Always.of_withFiles fun fs => ?_
  split
  · trivial
  · exact writeFailure_refuses _ _

theorem regularly_commitFiles (staged : List FileSystem.StagedFile) (fs : FileSystem) :
    Regularly (fun _ => True) (commitFiles staged fs).1 := by
  induction staged generalizing fs with
  | nil => trivial
  | cons file rest ih =>
    rw [commitFiles]
    split
    · exact ih _
    · exact writeFailure_refuses _ _

theorem always_commitFiles (staged : List FileSystem.StagedFile) :
    Run.Always Outcome.IsQuiet (do return written (← Run.withFiles (commitFiles staged))) :=
  (Run.Always.of_withFiles (regularly_commitFiles staged)).bind fun _ h =>
    Run.Always.of_pure (isQuiet_written h)

theorem always_writeSibling (s : Store) (destination : String)
    (container : FileSystem.StagedFile) :
    Run.Always Outcome.IsQuiet (writeSibling s destination container) := by
  refine (always_stageFile _ _).bind fun result hresult => ?_
  cases result with
  | error findings =>
    exact (Run.Always.of_any _).bind fun _ _ => Run.Always.of_pure (isQuiet_failed hresult)
  | ok sibling => exact always_commitFiles _

theorem exists_exportOptions {args : Arguments} (h : args.Provides exportStore.parameters) :
    ∃ o, ExportOptions.ofArguments args = .ok o := by
  obtain ⟨destination, hdestination⟩ := h.exists_read ParameterValue.filePath?
    List.mem_cons_self fun value hkind => by cases value <;> first | rfl | cases hkind
  obtain ⟨auxiliary, hauxiliary⟩ := h.exists_read ParameterValue.bool?
    (List.mem_cons_of_mem _ List.mem_cons_self)
    fun value hkind => by cases value <;> first | rfl | cases hkind
  refine ⟨⟨destination, auxiliary⟩, ?_⟩
  rw [ExportOptions.ofArguments]
  exact bind_eq_ok_iff.2 ⟨destination, argument_eq_ok hdestination,
    bind_eq_ok_iff.2 ⟨auxiliary, argument_eq_ok hauxiliary, rfl⟩⟩

/-- **The work of an export asks for no edits**, and reports no defect. All that it does, it does
to the files; an error comes from them, from the arguments or from being stopped. -/
theorem always_performExport (s : Store) {args : Arguments}
    (h : args.Provides exportStore.parameters) :
    Run.Always Outcome.IsQuiet (performExport s args) := by
  obtain ⟨o, ho⟩ := exists_exportOptions h
  rw [performExport, ho]
  refine (Run.Always.of_any _).bind fun now _ => ?_
  refine (Run.Always.of_withFiles (regularly_makeDirectoryOf _)).bind fun made hmade => ?_
  cases made with
  | error findings => exact Run.Always.of_pure (isQuiet_failed hmade)
  | ok _ =>
    refine (always_stageFile _ _).bind fun staged hstaged => ?_
    cases staged with
    | error findings => exact Run.Always.of_pure (isQuiet_failed hstaged)
    | ok container =>
      dsimp only
      split
      · exact always_writeSibling _ _ _
      · exact always_commitFiles _

theorem planExport_regular (files : FileSystem) (s : Store) (o : ExportOptions) :
    (planExport files s o).findings.Regular := by
  rw [planExport]
  refine Findings.regular_append.2 ⟨?_, ?_⟩
  · split
    · exact Findings.regular_ofError (by decide) _
    · exact Findings.regular_none
  · split
    · exact Findings.regular_ofWarning (by decide) _
    · exact Findings.regular_none

theorem exportStore_plan (files : FileSystem) (s : Store) (args : Arguments) :
    exportStore.plan files s args = match ExportOptions.ofArguments args with
      | .ok o => planExport files s o
      | .error findings => .failed findings := rfl

theorem regular_exportStore : exportStore.Regular where
  keys := by decide
  plan files s args hargs := by
    obtain ⟨o, ho⟩ := exists_exportOptions hargs
    rw [exportStore_plan, ho]
    exact planExport_regular files s o
  perform s args context state hargs := (always_performExport s hargs context state).2

/-! ## Importing

An import asks for groups on the way and for the geometry. The check looks at the objects
on the way that are there already. What it does not look at is what a missing group would
lie beneath: groups are refused by matrices, and by geometries under the names that these
have registered. -/

/-- **A place that the check finds no fault with** is free, and a geometry may lie there. The
outlook has to agree with the store on whether the path is taken, as it does where no edit before
concerns it. -/
theorem ready_of_insertFault? {o : Outlook} {path : DataPath} {geometry : Geometry}
    (hs : o.store.Sound) (hstays : o.remains path = (o.store.get? path).isSome)
    (hmissing : o.missingParent? path = none)
    (hinsert : o.insertFault? path (.geometry geometry) false = none) :
    o.store.get? path = none ∧ PathMap.Ready o.store.get? path := by
  have hcontains := hs.coherent.contains_eq path
  cases hfree : o.store.get? path with
  | some object =>
    rw [Outlook.insertFault?, hmissing, hstays, Store.checkCreate, hcontains, hfree] at hinsert
    cases hinsert
  | none =>
    rw [hfree] at hcontains
    refine ⟨rfl, (PathMap.ready_of_none hfree).2 fun above holder habove hholder => ?_⟩
    rw [Outlook.insertFault?_of_holder hmissing (by rw [hcontains]; rfl) habove hholder] at hinsert
    -- No fault was found, so what is above may hold the geometry; and a geometry fits exactly where
    -- a group does.
    have hcheck : checkChild above holder path.name (.geometry geometry) = .ok () := by
      cases hcheck : checkChild above holder path.name (.geometry geometry) with
      | ok _ => rfl
      | error cause =>
        rw [hcheck] at hinsert
        cases hinsert
    exact fits_geometry_iff.1 ((checkChild_eq_ok_iff above).1 hcheck)

namespace ImportOptions

variable {s : Store} {o : ImportOptions} {subtree : Subtree}

/-- **What the check of an import tells**: the path of the geometry is free, it may
lie there, and whatever is on the way can hold something. -/
theorem ready_of_checkEdits (hs : s.Sound) {geometry : Geometry}
    (hlabel : subtree.label = .geometry geometry)
    (h : (checkEdits s (o.edits subtree)).hasErrors = false) :
    s.get? o.geometry = none ∧ PathMap.Ready s.get? o.geometry
      ∧ ∀ above, o.geometry.parent? = some above → ∀ next object, above.startsWith next = true →
        s.get? next = some object → object.isContainer = true := by
  have hfaults : (Outlook.foreseen s []).faults (o.edits subtree) = [] := by
    show Outlook.faults ⟨s, [], []⟩ (o.edits subtree) = []
    simpa [checkEdits, Findings.hasErrors] using h
  -- No edit comes before the first one, so the check sees the store as it is.
  have hremains : ∀ path, (Outlook.foreseen s []).remains path = (s.get? path).isSome := fun path =>
    Outlook.remains_of_apart hs.coherent (by simp)
  cases hparent : o.geometry.parent? with
  | none =>
    rw [edits, hparent] at hfaults
    have hinsert : (Outlook.foreseen s []).insertFault? o.geometry (.geometry geometry) false
        = none := by
      simpa [Outlook.faults, Outlook.fault?, hlabel] using hfaults
    have hmissing : (Outlook.foreseen s []).missingParent? o.geometry = none := by
      rw [Outlook.missingParent?, hparent]
      rfl
    obtain ⟨hfree, hready⟩ := ready_of_insertFault? hs (hremains o.geometry) hmissing hinsert
    exact ⟨hfree, hready, fun above habove => by cases habove⟩
  | some above =>
    rw [edits, hparent] at hfaults
    -- The two edits are checked one after the other. After the groups nothing above the geometry is
    -- missing, and the check of the place is that of the store.
    obtain ⟨hgroups, hinsert⟩ : (Outlook.foreseen s []).blocker? above = none
        ∧ ((Outlook.foreseen s []).after (.groups above)).insertFault? o.geometry
          (.geometry geometry) false = none := by
      simpa [Outlook.faults, Outlook.fault?, hlabel] using hfaults
    obtain ⟨hfree, hready⟩ :=
      ready_of_insertFault? (o := (Outlook.foreseen s []).after (.groups above)) hs
        (hremains o.geometry) (Outlook.missingParent?_after_groups hparent) hinsert
    refine ⟨hfree, hready, fun above' habove next object hnext hobject => ?_⟩
    obtain rfl := Option.some.inj habove
    have hnone := List.findSome?_eq_none_iff.1 hgroups next (DataPath.mem_prefixes.2 hnext)
    rw [hremains, Outlook.store_foreseen, hobject] at hnone
    by_contra hcontainer
    simp [hcontainer] at hnone

/-- Where the check of an import found nothing, the edits are accepted unless a
missing group on the way would lie where it may not. -/
theorem acceptedEach_iff_not_blocked (hs : s.Sound) {announced : Subtree}
    {geometry geometry' : Geometry}
    (hlabel : announced.label = .geometry geometry)
    (hcheck : (checkEdits s (o.edits announced)).hasErrors = false)
    (hplain : subtree.tree.Lawful ∧ subtree.tree.FitsWithin)
    (hlabel' : subtree.label = .geometry geometry') :
    Edit.AcceptedEach s.get? (o.edits subtree) ↔ ¬PathMap.Blocked s.get? o.geometry := by
  rw [o.acceptedEach_iff hplain hlabel']
  obtain ⟨hfree, hready, hway⟩ := ready_of_checkEdits hs hlabel hcheck
  refine ⟨fun hpass hblocked => hblocked.not_passable hpass.2, fun hclear => ⟨hfree, ?_⟩⟩
  intro next hnext
  -- Every path on the way is looked at: the geometry itself, an object that is there and was found
  -- to be a container, or a missing group.
  have hstarts := DataPath.mem_prefixes.1 hnext
  by_cases hplace : o.geometry = next
  · exact hplace ▸ hready
  have hdescends := DataPath.isDescendantOf_iff.2 ⟨hstarts, hplace⟩
  cases hobject : s.get? next with
  | some object =>
    refine (PathMap.ready_of_some hobject).2 ?_
    cases hparent : o.geometry.parent? with
    | none =>
      rw [DataPath.not_isDescendantOf_of_parent? hparent] at hdescends
      cases hdescends
    | some above =>
      rw [DataPath.isDescendantOf_of_parent? hparent] at hdescends
      exact hway above hparent next object hdescends hobject
  | none =>
    refine (PathMap.ready_of_none hobject).2 fun above holder habove hholder => ?_
    by_contra hfits
    exact hclear ⟨next, above, holder, hdescends, habove, hobject, hholder, hfits⟩

end ImportOptions

/-- **When an import reports a defect**: nothing else was wrong, and a missing
group on the way to the geometry would lie where no group may lie. -/
theorem importGeometry_defect_iff {s : Store} (hs : s.Sound) (args : Arguments)
    {context : RunContext} {state : RunState} (hsized : state.files.IsSized)
    (hrunning : (Run.isStopped context state).1 = false) :
    let bound := (Meshwork.bind importGeometry.parameters args).1
    (∃ d ∈ (importGeometry.execute s args context state).1.1, d.code = .internal) ↔
      (importGeometry.preflight state.files s args).hasErrors = false
        ∧ (importGeometry.perform s bound context
            (Run.isStopped context state).2).1.findings.hasErrors = false
        ∧ ∃ o, ImportOptions.ofArguments bound = .ok o ∧ PathMap.Blocked s.get? o.geometry := by
  intro bound
  have hregular := ImportOptions.regular_importGeometry
  refine (hregular.defect_iff hs args hrunning).trans ?_
  simp only [Bool.not_eq_true]
  -- Without an error beforehand the options can be read; without one in the work, there is a
  -- subtree. So all that can fail is the commit.
  refine and_congr_right fun hbefore => and_congr_right fun hwork => ?_
  have hargs : bound.Provides importParameters := hregular.provides (Bool.not_eq_true _ ▸ hbefore)
  obtain ⟨-, hplan, hcheck⟩ :=
    (importGeometry.hasErrors_preflight_eq_false_iff state.files s args).1 hbefore
  obtain ⟨o, announced, ho, hnames, hannounced, he⟩ := ImportOptions.exists_announced hargs hplan
  obtain ⟨mesh, built, subtree, hmesh, hbuilt, hsubtree, hdone⟩ :=
    (ImportOptions.performImport_cases ho context (Run.isStopped context state).2).resolve_left
      fun herror => absurd (herror.1.symm.trans hwork) nofun
  rw [he] at hcheck
  have hedits := ImportOptions.acceptedEach_iff_not_blocked hs
    (ImportOptions.label_of_subtree hannounced) hcheck
    (ImportOptions.isPlain_of_build hsized hnames hmesh hbuilt hsubtree)
    (ImportOptions.label_of_subtree hsubtree)
  rw [show importGeometry.perform s bound = performImport bound from rfl, hdone, hedits, not_not]
  refine ⟨fun hblocked => ⟨o, ho, hblocked⟩, fun ⟨other, hother, hblocked⟩ => ?_⟩
  exact Except.ok.inj (ho.symm.trans hother) ▸ hblocked

theorem filters_builtin : Registry.builtin.filters
    = [importGeometry, exportStore, readStore, createGroup, deleteData] := rfl

/-- **The one defect that the filters of the library report.** On a store that
operations lead to, an execution reports a defect exactly if it is an import that
was not stopped, with nothing wrong in what was found beforehand and nothing wrong
in its work, where a missing group on the way to the geometry would lie beneath an
object that may not hold it. -/
theorem exists_internal_iff {f : Filter} (hf : f ∈ Registry.builtin.filters)
    (operations : List Operation) (args : Arguments) (context : RunContext) (state : RunState)
    (hsized : state.files.IsSized) :
    let s := Store.after operations
    let bound := (Meshwork.bind f.parameters args).1
    (∃ d ∈ (f.execute s args context state).1.1, d.code = .internal) ↔
      f = importGeometry ∧ (Run.isStopped context state).1 = false
        ∧ (f.preflight state.files s args).hasErrors = false
        ∧ (f.perform s bound context (Run.isStopped context state).2).1.findings.hasErrors = false
        ∧ ∃ o, ImportOptions.ofArguments bound = .ok o ∧ PathMap.Blocked s.get? o.geometry := by
  intro s bound
  have hs : s.Sound := Store.sound_after operations
  cases hrunning : (Run.isStopped context state).1 with
  | true =>
    -- An execution that is told to stop reports that and nothing else.
    have hresult := congrArg Prod.fst (f.execute_of_stopped s args hrunning)
    refine iff_of_false ?_ fun hcases => Bool.false_ne_true hcases.2.1.symm
    rw [hresult]
    rintro ⟨d, hd, hcode⟩
    exact Findings.regular_attributed.2 (Findings.regular_ofError (by decide) _) d hd hcode
  | false =>
    have hother : f ≠ importGeometry →
        (¬∃ d ∈ (f.execute s args context state).1.1, d.code = .internal) →
        ((∃ d ∈ (f.execute s args context state).1.1, d.code = .internal) ↔
          f = importGeometry ∧ false = false ∧ (f.preflight state.files s args).hasErrors = false
            ∧ (f.perform s bound context (Run.isStopped context state).2).1.findings.hasErrors = false
            ∧ ∃ o, ImportOptions.ofArguments bound = .ok o ∧ PathMap.Blocked s.get? o.geometry) :=
      fun hne hnone => iff_of_false hnone fun hcases => hne hcases.1
    rw [filters_builtin] at hf
    simp only [List.mem_cons, List.not_mem_nil, or_false] at hf
    rcases hf with rfl | rfl | rfl | rfl | rfl
    · refine (importGeometry_defect_iff hs args hsized hrunning).trans ?_
      exact ⟨fun h => ⟨rfl, rfl, h⟩, fun h => h.2.2⟩
    · refine hother (fun he => absurd (congrArg Filter.name he) (by decide)) fun hinternal => ?_
      obtain ⟨hbefore, -, hrefused⟩ :=
        (regular_exportStore.defect_iff hs args hrunning).1 hinternal
      have hquiet := (always_performExport s (regular_exportStore.provides hbefore) context
        (Run.isStopped context state).2).1
      rw [show exportStore.perform s _ = performExport s _ from rfl, hquiet] at hrefused
      exact hrefused trivial
    · exact hother (fun he => absurd (congrArg Filter.name he) (by decide))
        (straight_readStore.not_internal hs args hrunning)
    · exact hother (fun he => absurd (congrArg Filter.name he) (by decide))
        (straight_createGroup.not_internal hs args hrunning)
    · exact hother (fun he => absurd (congrArg Filter.name he) (by decide))
        (straight_deleteData.not_internal hs args hrunning)

/-- A triangle is imported beneath a group that is missing beneath an attribute
matrix: nothing is wrong beforehand, and the execution reports a defect. -/
theorem exists_internal_blocked :
    let operations : List Operation :=
      [.create ⟨["M"], by decide, by decide⟩ (.attributeMatrix ⟨3⟩) false]
    let contents := bytesOf ("solid t\nfacet normal 0 0 1\nouter loop\n"
      ++ "vertex 0 0 0\nvertex 1 0 0\nvertex 0 1 0\nendloop\nendfacet\nendsolid t\n")
    let state := RunState.start ⟨[(["t.stl"], .file contents)], []⟩
    let args : Arguments := [("file_path", .text "t.stl"), ("geometry_path", .text "M/G/T")]
    importGeometry ∈ Registry.builtin.filters ∧ state.files.IsSized
      ∧ (importGeometry.preflight state.files (Store.after operations) args).isClean
      ∧ ∃ d ∈ (importGeometry.execute (Store.after operations) args
          ⟨⟨0, 0⟩, fun _ => false⟩ state).1.1, d.code = .internal := by
  intro operations contents state args
  let o : ImportOptions :=
    { file := "t.stl"
      geometry := ⟨["M", "G", "T"], by decide, by decide⟩
      vertexMatrix := ⟨["M", "G", "T", "Vertex Data"], by decide, by decide⟩
      faceMatrix := ⟨["M", "G", "T", "Face Data"], by decide, by decide⟩
      normals := ⟨["M", "G", "T", "Face Data", "Face Normals"], by decide, by decide⟩
      scale := .one
      applyScale := false }
  let mesh : Mesh :=
    ⟨[⟨⟨0⟩, ⟨0⟩, ⟨0⟩⟩, ⟨⟨0x3f800000⟩, ⟨0⟩, ⟨0⟩⟩, ⟨⟨0⟩, ⟨0x3f800000⟩, ⟨0⟩⟩], [⟨0, 1, 2⟩],
      some [⟨⟨0⟩, ⟨0⟩, ⟨0x3f800000⟩⟩]⟩
  have hfilter : importGeometry ∈ Registry.builtin.filters := by
    rw [filters_builtin]
    exact List.mem_cons_self
  -- The file is the only one, and short.
  have hsized : state.files.IsSized := FileSystem.isSized_of_entries fun place bytes hmem => by
    obtain ⟨-, rfl⟩ : place = ["t.stl"] ∧ bytes = contents := by
      simpa [state, RunState.start] using hmem
    decide +kernel
  have hclean : (importGeometry.preflight state.files (Store.after operations) args).isClean := by
    decide +kernel
  have hbefore : (importGeometry.preflight state.files (Store.after operations) args).hasErrors
      = false := by decide +kernel
  have hoptions : ImportOptions.ofArguments (Meshwork.bind importGeometry.parameters args).1 = .ok o :=
    rfl
  have hmesh : readMesh state.files o = .ok mesh := by decide +kernel
  have hsurface : mesh.IsSurface := Mesh.isSurface_of_length_le (by decide) (by decide)
  obtain ⟨built, subtree, hbuilt, hsubtree, hwork⟩ :=
    ImportOptions.performImport_of_isSurface hoptions ⟨⟨0, 0⟩, fun _ => false⟩
      (Run.isStopped ⟨⟨0, 0⟩, fun _ => false⟩ state).2 hmesh hsurface rfl
  refine ⟨hfilter, hsized, hclean, ?_⟩
  refine (exists_internal_iff hfilter operations args _ state hsized).2
    ⟨rfl, rfl, hbefore, ?_, o, hoptions, ?_⟩
  · have hbuild := ImportOptions.regularly_build o mesh
    rw [hbuilt] at hbuild
    rw [show importGeometry.perform _ _ = performImport _ from rfl, hwork]
    exact hbuild.2.2.2.1
  -- The missing group `M/G` would lie beneath the matrix `M`, which holds arrays only.
  · exact ⟨⟨["M", "G"], by decide, by decide⟩, ⟨["M"], by decide, by decide⟩,
      .attributeMatrix ⟨3⟩, by decide, by decide, by decide +kernel, by decide +kernel,
      fun ⟨_, h, _⟩ => nomatch h⟩

end Filter

end Meshwork
