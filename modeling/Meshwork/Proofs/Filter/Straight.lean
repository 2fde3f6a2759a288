import Meshwork.Filter.Read
import Meshwork.Filter.Structure
import Meshwork.Proofs.Container.Restore
import Meshwork.Proofs.Edit.Apart
import Meshwork.Proofs.Filter.Regular
import Meshwork.Proofs.Store.Refinement

/-!
# Filters that do what they announce

The filters that read a container, create a group or take out data know their
edits when they plan: the work makes just these. The edits concern top-level
names of their own, and what they insert is valid and fits (`Filter.Straight`).
So everything that may go wrong with them is found beforehand, and nothing else
is (`Filter.Straight.not_internal`).

What a container holds is a sound store, like every store that operations lead
to (`Container.sound_decode`), so its trees can be inserted elsewhere.
-/

namespace Meshwork

namespace Store

/-- Nothing lies above a top-level path. -/
theorem parent?_of_mem_topLevel {s : Store} {path : DataPath} (h : path ∈ s.topLevel) :
    path.parent? = none := by
  obtain ⟨name, -, hname⟩ := List.mem_filterMap.1 h
  exact if_pos (Nat.le_of_eq (congrArg List.length (DataPath.segments_of_toOption hname)))

/-- **Top-level paths are in order of their names.** The order is that of the bytes of the names,
as everywhere in a store. -/
theorem Sound.pairwise_topLevel_lt {s : Store} (h : s.Sound) :
    s.topLevel.Pairwise fun path other => path.top < other.top := by
  obtain ⟨layout, hlaid⟩ := h.coherent
  have hnames : s.roots.keys.Pairwise (· < ·) := by
    rw [hlaid.roots, Layout.entries, Keyed.keys_mapValues]
    exact List.pairwise_map.2 hlaid.lawful.ordered
  have htop : ∀ {name : String} {path : DataPath},
      (DataPath.ofSegments [name]).toOption = some path → path.top = name := fun hpath => by
    simp [DataPath.top, DataPath.segments_of_toOption hpath]
  refine List.pairwise_filterMap.2 (hnames.imp fun hlt path hpath other hother => ?_)
  rwa [htop hpath, htop hother]

/-- **Top-level paths have different names.** This is what sets the edits of a container apart
from each other. -/
theorem Sound.pairwise_topLevel {s : Store} (h : s.Sound) :
    s.topLevel.Pairwise fun path other => path.top ≠ other.top :=
  h.pairwise_topLevel_lt.imp String.ne_of_lt

/-- **The top-level paths** are those of one name with an object. A path of one name is one that
has no parent. -/
theorem Sound.mem_topLevel {s : Store} (h : s.Sound) {path : DataPath} :
    path ∈ s.topLevel ↔ path.parent? = none ∧ (s.get? path).isSome := by
  obtain ⟨layout, hlaid⟩ := h.coherent
  -- A path of one name has an object if the name is one of the topmost.
  have hthere : ∀ {name : String}, path.segments = [name] →
      ((s.get? path).isSome ↔ name ∈ s.roots.keys) := fun {name} hsegments => by
    rw [hlaid.isSome_get?, hsegments, NamedForest.at?, hlaid.roots, Layout.entries,
      Keyed.keys_mapValues, Keyed.mem_keys_iff]
    cases Keyed.find? name layout <;> rfl
  constructor
  · intro hpath
    obtain ⟨name, hname, hsegments⟩ := List.mem_filterMap.1 hpath
    exact ⟨parent?_of_mem_topLevel hpath,
      (hthere (DataPath.segments_of_toOption hsegments)).2 hname⟩
  · rintro ⟨hnone, hsome⟩
    have hsegments := DataPath.segments_of_parent?_eq_none hnone
    refine List.mem_filterMap.2 ⟨path.name, (hthere hsegments).1 hsome, ?_⟩
    rw [← hsegments, path.ofSegments_segments]
    rfl

end Store

namespace Filter

/-! ## Straight filters

For such a filter, the check of its plan is a rehearsal of its work. This makes everything
about its executions a consequence of what is known of commits. -/

/-- **A filter makes just the edits that it announces**, and they are plain edits apart from each
other. Making a group, deleting and reading a container are straight, and for such a filter the
check of the edits is exact. -/
structure Straight (f : Filter) : Prop where
  /-- Nothing it reports is a defect. -/
  regular : f.Regular
  /-- After a plan without errors, the work makes the edits of the plan. -/
  perform : ∀ (files : FileSystem) (s : Store) (args : Arguments) (context : RunContext)
    (state : RunState), args.Provides f.parameters → state.files = files →
      (f.plan files s args).findings.hasErrors = false →
      (f.perform s args context state).1 = ⟨.none, (f.plan files s args).edits⟩
  /-- The edits concern top-level names of their own. -/
  apart : ∀ files s args, Edit.Apart (f.plan files s args).edits
  /-- They insert what is valid and fits, or take out. -/
  plain : ∀ files s args, ∀ edit ∈ (f.plan files s args).edits, edit.IsPlain

/-! ### Filters with one path

These look up one path and make one edit there. -/

theorem exists_targetPath {args : Arguments} {title help : String}
    (h : args.Provides [pathParameter title help]) : ∃ path, targetPath args = .ok path := by
  obtain ⟨path, hpath⟩ := h.exists_read ParameterValue.dataPath? List.mem_cons_self
    fun value hkind => by cases value <;> first | rfl | cases hkind
  exact ⟨path, argument_eq_ok hpath⟩

theorem createGroup_plan (files : FileSystem) (s : Store) (args : Arguments) :
    createGroup.plan files s args = match targetPath args with
      | .ok path => ⟨.none, [groupEdit path]⟩
      | .error findings => .failed findings := rfl

theorem deleteData_plan (files : FileSystem) (s : Store) (args : Arguments) :
    deleteData.plan files s args = match targetPath args with
      | .error findings => .failed findings
      | .ok path =>
        if s.contains path then ⟨.none, [.remove path]⟩
        else .failed (.ofError .pathNotFound s!"no object exists at '{path.text}'") := rfl

/-- **Making a group is straight**: if there is a path, the plan and the work are one edit there.
The work needs neither files nor a question whether to stop. -/
theorem straight_createGroup : createGroup.Straight where
  regular :=
    { keys := List.nodup_singleton _
      plan := fun files s args hargs => by
        obtain ⟨path, hpath⟩ := exists_targetPath hargs
        rw [createGroup_plan, hpath]
        exact Findings.regular_none
      perform := fun s args context state hargs => by
        obtain ⟨path, hpath⟩ := exists_targetPath hargs
        show (performEdit groupEdit args).findings.Regular
        rw [performEdit, hpath]
        exact Findings.regular_none }
  perform files s args context state hargs _ _ := by
    obtain ⟨path, hpath⟩ := exists_targetPath hargs
    show performEdit groupEdit args = _
    rw [createGroup_plan, performEdit, hpath]
  apart files s args := by
    rw [createGroup_plan]
    split
    · exact List.pairwise_singleton _ _
    · exact List.Pairwise.nil
  plain files s args := by
    rw [createGroup_plan]
    split
    · rintro edit hedit
      rw [List.mem_singleton.1 hedit]
      exact ⟨NamedTree.lawful_leaf _, NamedTree.fitsWithin_leaf _⟩
    · exact nofun

/-- **Taking out an object is straight.** The plan looks whether the object is there and the work
does not, which makes no difference once the plan has no error. -/
theorem straight_deleteData : deleteData.Straight where
  regular :=
    { keys := List.nodup_singleton _
      plan := fun files s args hargs => by
        obtain ⟨path, hpath⟩ := exists_targetPath hargs
        rw [deleteData_plan, hpath]
        dsimp only
        split
        · exact Findings.regular_none
        · exact Findings.regular_ofError (by decide) _
      perform := fun s args context state hargs => by
        obtain ⟨path, hpath⟩ := exists_targetPath hargs
        show (performEdit .remove args).findings.Regular
        rw [performEdit, hpath]
        exact Findings.regular_none }
  perform files s args context state hargs _ hplan := by
    obtain ⟨path, hpath⟩ := exists_targetPath hargs
    rw [deleteData_plan, hpath] at hplan ⊢
    show performEdit .remove args = _
    rw [performEdit, hpath]
    dsimp only at hplan ⊢
    -- The object is there, or else the plan had an error.
    split at hplan
    · rw [if_pos (by assumption)]
    · cases hplan
  apart files s args := by
    rw [deleteData_plan]
    split
    · exact List.Pairwise.nil
    · split
      · exact List.pairwise_singleton _ _
      · exact List.Pairwise.nil
  plain files s args := by
    rw [deleteData_plan]
    split
    · exact nofun
    · split
      · rintro edit hedit
        rw [List.mem_singleton.1 hedit]
        trivial
      · exact nofun

/-! ### Reading a container

The trees that are read are those of a store, which is sound since the container was
accepted. Each of them comes to the top under its own name. -/

/-- The edits that read a container are inserts of what is valid and fits, at
top-level paths. -/
theorem ReadOptions.exists_of_load {o : ReadOptions} {files : FileSystem} {edits : List Edit}
    (h : o.load files = .ok edits) : ∃ loaded : Store, loaded.Sound ∧ edits = o.edits loaded := by
  rw [ReadOptions.load] at h
  obtain ⟨bytes, -, h⟩ := bind_eq_ok_iff.1 h
  obtain ⟨loaded, hloaded, h⟩ := bind_eq_ok_iff.1 h
  exact ⟨loaded, Container.sound_decode (mapError_eq_ok_iff.1 hloaded), (pure_eq_ok_iff.1 h).symm⟩

theorem ReadOptions.exists_of_mem_edits {o : ReadOptions} {loaded : Store} (h : loaded.Sound)
    {edit : Edit} (hedit : edit ∈ o.edits loaded) :
    ∃ path subtree, edit = .insert path subtree o.overwrite ∧ path ∈ loaded.topLevel
      ∧ subtree.tree.Lawful ∧ subtree.tree.FitsWithin := by
  obtain ⟨path, hpath, hmap⟩ := List.mem_filterMap.1 hedit
  obtain ⟨subtree, hcopy, rfl⟩ := Option.map_eq_some_iff.1 hmap
  have htree := h.coherent.hasTree_snapshot? hcopy
  exact ⟨path, subtree, rfl, hpath, htree.lawful, h.placed.fitsWithin htree⟩

theorem ReadOptions.apart_edits (o : ReadOptions) {loaded : Store} (h : loaded.Sound) :
    Edit.Apart (o.edits loaded) := by
  refine List.pairwise_filterMap.2 (h.pairwise_topLevel.imp ?_)
  intro path other htop edit hedit later hlater
  obtain ⟨subtree, -, rfl⟩ := Option.map_eq_some_iff.1 hedit
  obtain ⟨subtree', -, rfl⟩ := Option.map_eq_some_iff.1 hlater
  exact htop

/-- **An object is read** if its path is free, or may be overwritten. As the trees come from a
sound store, they are valid and fit, and that is not refused. -/
theorem ReadOptions.accepted_iff {o : ReadOptions} {loaded : Store} (h : loaded.Sound)
    {edit : Edit} (hedit : edit ∈ o.edits loaded) {map : PathMap} :
    edit.Accepted map ↔ map edit.path = none ∨ o.overwrite = true := by
  obtain ⟨path, subtree, rfl, hpath, hplain⟩ := exists_of_mem_edits h hedit
  have htop := Store.parent?_of_mem_topLevel hpath
  simp [Edit.Accepted, Edit.path, htop, hplain]

theorem exists_readOptions {args : Arguments} (h : args.Provides readStore.parameters) :
    ∃ o, ReadOptions.ofArguments args = .ok o := by
  obtain ⟨file, hfile⟩ := h.exists_read ParameterValue.filePath? List.mem_cons_self
    fun value hkind => by cases value <;> first | rfl | cases hkind
  obtain ⟨overwrite, hoverwrite⟩ := h.exists_read ParameterValue.bool?
    (List.mem_cons_of_mem _ List.mem_cons_self)
    fun value hkind => by cases value <;> first | rfl | cases hkind
  refine ⟨⟨file, overwrite⟩, ?_⟩
  rw [ReadOptions.ofArguments]
  exact bind_eq_ok_iff.2 ⟨file, argument_eq_ok hfile,
    bind_eq_ok_iff.2 ⟨overwrite, argument_eq_ok hoverwrite, rfl⟩⟩

theorem regularly_load (o : ReadOptions) (files : FileSystem) :
    Regularly (fun edits => o.load files = .ok edits) (o.load files) := by
  have h : Regularly (fun _ => True) (o.load files) := by
    rw [ReadOptions.load]
    refine (regularly_readInput files o.file).bind fun bytes _ => ?_
    exact (regularly_codec o.file _).bind fun loaded _ => trivial
  cases hload : o.load files with
  | error findings => rw [hload] at h; exact h
  | ok edits => rfl

/-- **What is announced for a container**: its edits, or an error that is no defect. The error
comes from the file or from what it holds. -/
theorem regularly_planRead {args : Arguments} {o : ReadOptions} (files : FileSystem) (s : Store)
    (ho : ReadOptions.ofArguments args = .ok o) :
    Regularly (fun plan => ∃ edits, o.load files = .ok edits ∧ plan = ⟨o.notices s edits, edits⟩)
      (planRead files s args) := by
  rw [planRead, ho]
  refine (regularly_requireFile files o.file).bind fun _ _ => ?_
  exact (regularly_load o files).bind fun edits hedits => ⟨edits, hedits, rfl⟩

theorem performRead_apply {args : Arguments} {o : ReadOptions}
    (ho : ReadOptions.ofArguments args = .ok o) (context : RunContext) (state : RunState) :
    (performRead args context state).1 = match o.load state.files with
      | .ok edits => ⟨.none, edits⟩
      | .error findings => .failed findings := by
  rw [performRead, ho]
  simp only [Run.bind_apply, Run.files_apply]
  rw [show (Run.report readName s!"reading {o.file}" context state).2.files = state.files from rfl]
  cases o.load state.files <;> rfl

/-- Notices are warnings. -/
theorem ReadOptions.notices_regular (o : ReadOptions) (s : Store) (edits : List Edit) :
    (o.notices s edits).hasErrors = false ∧ (o.notices s edits).Regular := by
  rw [ReadOptions.notices]
  split
  · refine ⟨rfl, fun d hd => ?_⟩
    rcases hd with hd | hd
    · cases hd
    · obtain ⟨edit, -, rfl⟩ := List.mem_map.1 hd
      exact nofun
  · exact ⟨rfl, Findings.regular_none⟩

theorem readStore_plan (files : FileSystem) (s : Store) (args : Arguments) :
    readStore.plan files s args = match planRead files s args with
      | .ok plan => plan
      | .error findings => .failed findings := rfl

/-- The plan of a container that is read has its edits, or none. -/
theorem edits_readStore_plan (files : FileSystem) (s : Store) (args : Arguments) :
    (readStore.plan files s args).edits = []
      ∨ ∃ (o : ReadOptions) (loaded : Store), ReadOptions.ofArguments args = .ok o
        ∧ o.load files = .ok (o.edits loaded) ∧ loaded.Sound
        ∧ (readStore.plan files s args).edits = o.edits loaded := by
  rw [readStore_plan]
  cases hplan : planRead files s args with
  | error findings => exact Or.inl rfl
  | ok plan =>
    rw [planRead] at hplan
    obtain ⟨o, ho, hplan⟩ := bind_eq_ok_iff.1 hplan
    obtain ⟨-, -, hplan⟩ := bind_eq_ok_iff.1 hplan
    obtain ⟨edits, hedits, hplan⟩ := bind_eq_ok_iff.1 hplan
    obtain rfl := pure_eq_ok_iff.1 hplan
    obtain ⟨loaded, hloaded, rfl⟩ := ReadOptions.exists_of_load hedits
    exact Or.inr ⟨o, loaded, ho, hedits, hloaded, rfl⟩

/-- **Reading a container is straight.** Plan and work read the same file, which does not change in
between, and announce its objects at the top of the store, each of which has a name of its own. -/
theorem straight_readStore : readStore.Straight where
  regular :=
    { keys := by decide
      plan := fun files s args hargs => by
        obtain ⟨o, ho⟩ := exists_readOptions hargs
        have hplan := regularly_planRead files s ho
        rw [readStore_plan]
        cases hread : planRead files s args with
        | error findings =>
          rw [hread] at hplan
          exact hplan.2
        | ok plan =>
          rw [hread] at hplan
          obtain ⟨edits, -, rfl⟩ := hplan
          exact (o.notices_regular s edits).2
      perform := fun s args context state hargs => by
        obtain ⟨o, ho⟩ := exists_readOptions hargs
        have hload := regularly_load o state.files
        show (performRead args context state).1.findings.Regular
        rw [performRead_apply ho]
        cases hread : o.load state.files with
        | error findings =>
          rw [hread] at hload
          exact hload.2
        | ok edits => exact Findings.regular_none }
  perform files s args context state hargs hfiles hplan := by
    obtain ⟨o, ho⟩ := exists_readOptions hargs
    have hread := regularly_planRead files s ho
    show (performRead args context state).1 = _
    rw [performRead_apply ho, hfiles]
    rw [readStore_plan] at hplan ⊢
    -- The plan was read without an error, so its edits are those of the container, as for the work.
    cases hplanned : planRead files s args with
    | error findings =>
      rw [hplanned] at hplan hread
      exact absurd (hread.1.symm.trans hplan) nofun
    | ok plan =>
      rw [hplanned] at hread
      obtain ⟨edits, hedits, rfl⟩ := hread
      rw [hedits]
  apart files s args := by
    rcases edits_readStore_plan files s args with h | ⟨o, loaded, -, -, hloaded, h⟩
    · rw [h]
      exact List.Pairwise.nil
    · rw [h]
      exact o.apart_edits hloaded
  plain files s args := by
    rcases edits_readStore_plan files s args with h | ⟨o, loaded, -, -, hloaded, h⟩
    · rw [h]
      exact nofun
    · rw [h]
      intro edit hedit
      obtain ⟨path, subtree, rfl, -, hplain⟩ := ReadOptions.exists_of_mem_edits hloaded hedit
      exact hplain

namespace Straight

variable {f : Filter} {files : FileSystem} {s : Store} {args : Arguments}

/-- **With nothing wrong beforehand, the edits of the plan are accepted**, and they are what the
work asks for. The check is exact for plain edits that are apart, so a plan that is found in order
can be made. -/
theorem acceptedEach (h : f.Straight) (hs : s.Sound)
    (hbefore : (f.preflight files s args).hasErrors = false) (context : RunContext)
    (state : RunState) (hfiles : state.files = files) :
    Edit.AcceptedEach s.get? (f.plan files s (Meshwork.bind f.parameters args).1).edits
      ∧ (f.perform s (Meshwork.bind f.parameters args).1 context state).1
        = ⟨.none, (f.plan files s (Meshwork.bind f.parameters args).1).edits⟩ := by
  obtain ⟨hbound, hplan, hcheck⟩ := (f.hasErrors_preflight_eq_false_iff files s args).1 hbefore
  exact ⟨(h.apart files s _).acceptedEach_of_checkEdits (h.plain files s _) hs hcheck,
    h.perform files s _ context state (provides_bind h.regular.keys hbound) hfiles hplan⟩

/-- **No execution of a straight filter reports a defect.** A defect would be a refused edit, and
here all of them are accepted. -/
theorem not_internal (h : f.Straight) (hs : s.Sound) (args : Arguments) {context : RunContext}
    {state : RunState} (hrunning : (Run.isStopped context state).1 = false) :
    ¬∃ d ∈ (f.execute s args context state).1.1, d.code = .internal := by
  intro hinternal
  obtain ⟨hbefore, -, hrefused⟩ := (h.regular.defect_iff hs args hrunning).1 hinternal
  obtain ⟨haccepted, hwork⟩ := h.acceptedEach hs (Bool.not_eq_true _ ▸ hbefore) context
    (Run.isStopped context state).2 rfl
  rw [hwork] at hrefused
  exact hrefused haccepted

end Straight

end Filter

end Meshwork
