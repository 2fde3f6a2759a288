import Meshwork.Proofs.Edit.Alike
import Meshwork.Proofs.Edit.Unforeseen
import Meshwork.Proofs.Filter.Import
import Meshwork.Proofs.Filter.Straight

/-!
# Filters that keep to their plan

A plan is made without the data that the work brings in, and on a store that may
hold stand-ins. A filter is faithful for given arguments if neither matters
(`Filter.Faithful`): the plan asks the store for nothing but its paths, and the
work makes edits that are alike to those of the plan, without an error.

An execution of a faithful filter then follows what a rehearsal of its plan came
to on a store that is alike (`Filter.Faithful.execute`). Filters that make just
the edits they announce are faithful, and so is the import of a surface.
-/

namespace Meshwork

/-! ## Runs that are left alone

A run is stopped by what its context answers or by a flag in its state. Computations of
the library only ever ask, so a run that nobody stops keeps going, and keeps its files. -/

/-- **Nobody asks the run to stop.** A run is then left alone by its caller, but may still be told
to stop by a filter. -/
def RunContext.NeverStops (context : RunContext) : Prop := ∀ moment, context.stops moment = false

/-- **A run on given files** that was not told to stop. The reports that were made so far do not
matter. -/
structure RunState.On (files : FileSystem) (state : RunState) : Prop where
  /-- The files are these. -/
  files : state.files = files
  /-- The run was not told to stop. -/
  running : state.stopped = false

theorem RunState.on_start (files : FileSystem) : (RunState.start files).On files := ⟨rfl, rfl⟩

namespace Run

variable {α β : Type}

/-- **A computation that leaves the files**, and is not stopped unless somebody asks for it. So
whatever comes after it meets the files that the plan was made for. -/
def Steady (run : Run α) : Prop :=
  ∀ context state files, context.NeverStops → state.On files → (run context state).2.On files

/-- Whoever asks is told to go on. -/
theorem isStopped_eq_false {context : RunContext} {state : RunState} {files : FileSystem}
    (hcontext : context.NeverStops) (hstate : state.On files) :
    (isStopped context state).1 = false := by
  show (state.stopped || context.stops _) = false
  rw [hstate.running, hcontext]
  rfl

namespace Steady

theorem of_pure (value : α) : Steady (Pure.pure value : Run α) := fun _ _ _ _ hstate => hstate

theorem bind {first : Run α} {next : α → Run β} (hfirst : first.Steady)
    (hnext : ∀ value, (next value).Steady) : (first >>= next).Steady :=
  fun context state files hcontext hstate =>
    hnext _ context _ files hcontext (hfirst context state files hcontext hstate)

theorem of_report (filter message : String) : (report filter message).Steady :=
  fun _ _ _ _ hstate => ⟨hstate.files, hstate.running⟩

theorem of_isStopped : isStopped.Steady := fun _ _ _ hcontext hstate =>
  ⟨hstate.files, isStopped_eq_false hcontext hstate⟩

theorem of_files : Run.files.Steady := fun _ _ _ _ hstate => hstate

end Steady

end Run

namespace Filter

open Run

/-- An execution is steady if the work is. -/
theorem steady_execute {f : Filter} {s : Store} {args : Arguments}
    (h : ∀ bound, (f.perform s bound).Steady) : (f.execute s args).Steady := by
  rw [execute]
  refine Steady.of_isStopped.bind fun stopped => ?_
  split
  · exact .of_pure _
  refine Steady.of_files.bind fun files => ?_
  split
  dsimp only
  split
  · exact .of_pure _
  refine (h _).bind fun outcome => ?_
  split
  · exact .of_pure _
  · exact .of_pure _

theorem steady_performRead (args : Arguments) : (performRead args).Steady := by
  rw [performRead]
  split
  · exact .of_pure _
  refine (Steady.of_report _ _).bind fun _ => Steady.of_files.bind fun files => ?_
  split <;> exact .of_pure _

theorem steady_performImport (args : Arguments) : (performImport args).Steady := by
  rw [performImport]
  split
  · exact .of_pure _
  refine (Steady.of_report _ _).bind fun _ => Steady.of_files.bind fun files => ?_
  split
  · exact .of_pure _
  rw [importMesh]
  refine Steady.of_isStopped.bind fun stopped => ?_
  split
  · exact .of_pure _
  split
  · exact .of_pure _
  refine (Steady.of_report _ _).bind fun _ => ?_
  split <;> exact .of_pure _

/-! ## Faithful filters

Between the plan and the work there are two differences: the store may hold stand-ins when
the plan is made, and the plan does not have the data yet. Faithfulness is being
indifferent to both. -/

/-- **A filter keeps to its plan** for given files and arguments. The three fields are what a
preflight has to know of a filter to foresee its run: what it asks of the store, when its edits
are found in order, and that the work does what was announced. -/
structure Faithful (f : Filter) (files : FileSystem) (args : Arguments) : Prop where
  /-- The plan asks a store for nothing but its paths. -/
  plan : ∀ s t : Store, s.contains = t.contains → f.plan files s args = f.plan files t args
  /-- Edits of a plan without errors are found no fault with if they can be made. -/
  checked : ∀ s : Store, s.Sound → (f.plan files s args).findings.hasErrors = false →
    Edit.AcceptedEach s.get? (f.plan files s args).edits →
    checkEdits s (f.plan files s args).edits = .none
  /-- After a plan without errors, a run that is left alone makes edits that are
  alike, and reports no errors. -/
  perform : ∀ (s : Store) (context : RunContext) (state : RunState), context.NeverStops →
    state.On files → (f.plan files s args).findings.hasErrors = false →
    (f.perform s args context state).1.findings.hasErrors = false
      ∧ List.Forall₂ Edit.Alike (f.plan files s args).edits (f.perform s args context state).1.edits

/-- **An execution makes its edits** if nothing is wrong beforehand, the work reports no errors
and the edits are accepted. The number of edits is the number of changes that are committed. -/
theorem execute_of_acceptedEach (f : Filter) {s : Store} (hs : s.Sound) (args : Arguments)
    {context : RunContext} {state : RunState} (hrunning : (Run.isStopped context state).1 = false) :
    let outcome := (f.perform s (Meshwork.bind f.parameters args).1 context
      (Run.isStopped context state).2).1
    let result := (f.execute s args context state).1
    (f.preflight state.files s args).hasErrors = false → outcome.findings.hasErrors = false →
      Edit.AcceptedEach s.get? outcome.edits →
      result.1 = f.preflight state.files s args ++ outcome.findings.attributed f.name
        ∧ commit outcome.edits s = (.ok outcome.edits.length, result.2) := by
  intro outcome result hbefore hwork haccepted
  have hends : f.Ends state.files s args outcome result := f.ends_execute hs args hrunning
  clear_value result
  -- Of the ends of an execution, all but the successful one contradict what is assumed.
  cases hends with
  | refused h => exact absurd (h.symm.trans hbefore) nofun
  | dropped _ h => exact absurd (h.symm.trans hwork) nofun
  | made _ _ hcommit => exact ⟨rfl, hcommit⟩
  | failed _ _ hcommit =>
    rcases hs.commit_cases outcome.edits with ⟨-, s', hok, -⟩ | ⟨hrefused, -⟩
    · cases hok.symm.trans hcommit
    · exact absurd haccepted hrefused

/-- **An execution follows the rehearsal of its plan.** What was rehearsed without
errors on an alike store is executed without errors, and the stores are alike
again. -/
theorem Faithful.execute {f : Filter} {files : FileSystem} {args : Arguments}
    (h : f.Faithful files (Meshwork.bind f.parameters args).1) {s t : Store} (hs : s.Sound)
    (ht : t.Sound) (halike : PathMap.Alike t.get? s.get?)
    (hplan : (f.declare files t args).findings.hasErrors = false)
    (hrehearsed : (rehearse (f.declare files t args).edits t).1.hasErrors = false)
    {context : RunContext} {state : RunState} (hcontext : context.NeverStops)
    (hstate : state.On files) :
    let result := (f.execute s args context state).1
    result.1.hasErrors = false ∧ result.2.Sound
      ∧ PathMap.Alike (rehearse (f.declare files t args).edits t).2.get? result.2.get? := by
  intro result
  have hcontains : t.contains = s.contains := funext fun path => by
    rw [ht.coherent.contains_eq, hs.coherent.contains_eq, halike.isSome_eq]
  obtain ⟨hbound, hfound, hedits⟩ := declare_of_hasErrors_eq_false hplan
  rw [h.plan t s hcontains] at hfound hedits
  rw [hedits] at hrehearsed ⊢
  obtain ⟨haccepted, hmap⟩ := ht.rehearse_of_hasErrors_eq_false hrehearsed
  -- What the plan announces is accepted by the alike store, and found no fault with.
  obtain ⟨hwork, hmade⟩ := h.perform s context (Run.isStopped context state).2 hcontext
    (Steady.of_isStopped context state files hcontext hstate) hfound
  have hcheck := h.checked s hs hfound
    (Edit.acceptedEach_of_alike (Edit.alike_left hmade) halike haccepted)
  have hbefore : (f.preflight state.files s args).hasErrors = false := by
    rw [hstate.files, f.hasErrors_preflight_eq_false_iff, hcheck]
    exact ⟨hbound, hfound, rfl⟩
  -- So the edits that the work asks for are made.
  have hdone := Edit.acceptedEach_of_alike hmade halike haccepted
  obtain ⟨hresult, hcommit⟩ := f.execute_of_acceptedEach hs args
    (isStopped_eq_false hcontext hstate) hbefore hwork hdone
  rcases hs.commit_cases _ with ⟨-, s', hok, hs', hget⟩ | ⟨hrefused, -⟩
  · obtain ⟨-, rfl⟩ := Prod.mk.inj (hok.symm.trans hcommit)
    refine ⟨?_, hs', ?_⟩
    · rw [hresult, Findings.hasErrors_append, hbefore, Findings.hasErrors_attributed, hwork]
      rfl
    · rw [hmap, hget]
      exact Edit.alike_onEach hmade halike
  · exact absurd hdone hrefused

/-! ## The filters of the library

Straight filters are faithful by having the same edits in plan and work. The import has
different ones, with an empty geometry in the plan; its two trees have one outline. -/

variable {f : Filter} {files : FileSystem} {args : Arguments}

/-- **A filter that makes just what it announces is faithful**, if its plan asks for
paths only and nothing that it brings in depends on data. -/
theorem Straight.faithful (h : f.Straight) (hargs : args.Provides f.parameters)
    (hplan : ∀ s t : Store, s.contains = t.contains → f.plan files s args = f.plan files t args)
    (hopen : ∀ s, ∀ edit ∈ (f.plan files s args).edits, edit.IsOpen) : f.Faithful files args where
  plan := hplan
  checked s hs _ haccepted :=
    (h.apart files s args).checkEdits_of_acceptedEach (h.plain files s args) hs haccepted
  perform s context state _ hstate hfound := by
    rw [h.perform files s args context state hargs hstate.files hfound]
    exact ⟨rfl, List.forall₂_same.2 fun edit hedit =>
      .refl (h.plain files s args edit hedit) (hopen s edit hedit)⟩

theorem faithful_createGroup (hargs : args.Provides createGroup.parameters) :
    createGroup.Faithful files args := by
  refine straight_createGroup.faithful hargs (fun _ _ _ => rfl) fun s edit hedit => ?_
  rw [createGroup_plan] at hedit
  split at hedit
  · rw [List.mem_singleton.1 hedit]
    exact Or.inr (Or.inl rfl)
  · cases hedit

theorem faithful_deleteData (hargs : args.Provides deleteData.parameters) :
    deleteData.Faithful files args := by
  refine straight_deleteData.faithful hargs (fun s t hst => ?_) fun s edit hedit => ?_
  · rw [deleteData_plan, deleteData_plan, hst]
  · rw [deleteData_plan] at hedit
    split at hedit
    · cases hedit
    · split at hedit
      · rw [List.mem_singleton.1 hedit]
        trivial
      · cases hedit

theorem faithful_readStore (hargs : args.Provides readStore.parameters) :
    readStore.Faithful files args := by
  refine straight_readStore.faithful hargs (fun s t hst => ?_) fun s edit hedit => ?_
  · have hread : planRead files s args = planRead files t args := by
      unfold planRead ReadOptions.notices
      rw [hst]
    rw [readStore_plan, readStore_plan, hread]
  · rcases edits_readStore_plan files s args with he | ⟨o, loaded, -, -, hloaded, he⟩
    · rw [he] at hedit
      cases hedit
    · rw [he] at hedit
      obtain ⟨path, subtree, rfl, hpath, -⟩ := ReadOptions.exists_of_mem_edits hloaded hedit
      exact Or.inl (Store.parent?_of_mem_topLevel hpath)

namespace ImportOptions

variable {o : ImportOptions}

/-- **The trees around two geometries are alike.** They have the same names at the same places,
which is all that an edit is checked by. -/
theorem alike_subtree {geometry geometry' : Geometry} {normals normals' : List Point}
    {subtree subtree' : Subtree} (h : o.subtree geometry normals = .ok subtree)
    (h' : o.subtree geometry' normals' = .ok subtree') : subtree.tree.Alike subtree'.tree := by
  obtain ⟨_, hsubtree, htree⟩ := o.exists_subtree geometry normals
  obtain ⟨_, hsubtree', htree'⟩ := o.exists_subtree geometry' normals'
  obtain rfl := Except.ok.inj (h.symm.trans hsubtree)
  obtain rfl := Except.ok.inj (h'.symm.trans hsubtree')
  -- Objects of one outline are alike as leaves, and so are trees with one child each under the same
  -- name.
  have hleaf : ∀ {object object' : DataObject}, object.outline = object'.outline →
      NamedTree.Alike (.node object []) (.node object' []) :=
    fun he => .node he fun _ => .none
  have hsingle : ∀ (own name : String) {tree tree' : NamedTree DataObject}, tree.Alike tree' →
      Option.Rel NamedTree.Alike (Keyed.find? name [(own, tree)])
        (Keyed.find? name [(own, tree')]) := by
    intro own name tree tree' halike
    simp only [Keyed.find?]
    split
    · exact .some halike
    · exact .none
  -- Both trees are the geometry with two matrices, and one of these with an array beneath it.
  rw [htree, htree']
  refine .node rfl fun name => ?_
  rw [Keyed.find?_insert, Keyed.find?_insert]
  split
  · exact .some (.node rfl fun name => hsingle _ name (hleaf rfl))
  · exact hsingle _ name (hleaf rfl)

/-- What comes before the geometry are groups. -/
theorem exists_of_mem_groups {edit : Edit}
    (h : edit ∈ (o.geometry.parent?.map Edit.groups).toList) : ∃ path, edit = .groups path := by
  obtain ⟨above, -, he⟩ := Option.map_eq_some_iff.1 (Option.mem_toList.1 h)
  exact ⟨above, he.symm⟩

/-- **The check foresees the edits of an import.** One makes the groups on the way, if there are
any, and one brings in the tree, which is checked against what the first will have made. -/
theorem checkEdits_edits {s : Store} (hs : s.Sound) {subtree : Subtree}
    (haccepted : Edit.AcceptedEach s.get? (o.edits subtree)) :
    checkEdits s (o.edits subtree) = .none := by
  refine hs.checkEdits_eq_none haccepted fun done edit rest he => ?_
  refine Edit.not_unforeseen_of_groups fun other hother => exists_of_mem_groups (o := o) ?_
  -- Before any edit of the list there is at most what comes before the last one.
  rcases List.append_eq_append_iff.1 he with ⟨between, hdone, hlast⟩ | ⟨between, hgroups, -⟩
  · obtain rfl : between = [] := by
      cases between with
      | nil => rfl
      | cons => simp at hlast
    rwa [hdone, List.append_nil] at hother
  · rw [hgroups]
    exact List.mem_append_left _ hother

end ImportOptions

/-- **The import of a surface is faithful.** That the file holds a surface is asked for because
the plan does not look into it. -/
theorem faithful_importGeometry (hfiles : files.IsSized)
    (hargs : args.Provides importGeometry.parameters)
    (hmesh : ∀ o, ImportOptions.ofArguments args = .ok o →
      ∃ mesh, readMesh files o = .ok mesh ∧ mesh.IsSurface) : importGeometry.Faithful files args := by
  refine ⟨fun _ _ _ => rfl, fun s hs hfound haccepted => ?_,
    fun s context state hcontext hstate hfound => ?_⟩
  · obtain ⟨o, announced, -, -, -, he⟩ := ImportOptions.exists_announced hargs hfound
    rw [he] at haccepted ⊢
    exact ImportOptions.checkEdits_edits hs haccepted
  · obtain ⟨o, announced, ho, hnames, hannounced, he⟩ := ImportOptions.exists_announced hargs hfound
    obtain ⟨mesh, hread, hsurface⟩ := hmesh o ho
    rw [← hstate.files] at hread
    obtain ⟨built, subtree, hbuilt, hsubtree, hwork⟩ := ImportOptions.performImport_of_isSurface ho
      context state hread hsurface (isStopped_eq_false hcontext
        (Steady.of_report _ _ context state files hcontext hstate))
    have hbuild := ImportOptions.regularly_build o mesh
    rw [hbuilt] at hbuild
    rw [he, show importGeometry.perform s args = performImport args from rfl, hwork]
    -- The edits of the work are those of the plan, but for the geometry that is brought in: its
    -- tree is like the announced one.
    refine ⟨hbuild.2.2.2.1, List.rel_append (List.forall₂_same.2 fun edit hedit => ?_)
      (.cons (.insert (ImportOptions.alike_subtree hannounced hsubtree) ?_ ?_ ?_) .nil)⟩
    · obtain ⟨path, rfl⟩ := ImportOptions.exists_of_mem_groups hedit
      exact .groups path
    · exact ImportOptions.isPlain_of_subtree hnames (by decide) (by decide) rfl hannounced
    · exact ImportOptions.isPlain_of_build (hstate.files ▸ hfiles) hnames hread hbuilt hsubtree
    · refine Or.inr ?_
      rw [DataObject.IsOpen, ImportOptions.label_of_subtree hannounced]
      exact Or.inr rfl

end Filter

end Meshwork
