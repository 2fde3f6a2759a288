import Meshwork.Proofs.Filter.Faithful
import Meshwork.Proofs.Store.Equality
import Meshwork.Proofs.Store.Reattachment

/-!
# Reading a container merges it at the top

A container that is read is put beside what a store has, one top-level name after another.
`Store.Merges` says what comes of it: under the names of the container lies what the container
has and nothing else, and under all other names what was there before.

The names that both have are `Store.taken`. Without overwriting, each of them is an error,
in the order of the names, and with one nothing is done; with overwriting, each is a warning,
and reading never fails (`Filter.readMerges_after`). Both are found before anything is read in,
by a check that does not copy the store, and the check is exact here because top-level names
have nothing to do with each other.
-/

namespace Meshwork

namespace DataPath

variable {p top : DataPath}

theorem name_eq_top (h : top.parent? = none) : top.name = top.top := by
  rw [DataPath.top]
  simp only [segments_of_parent?_eq_none h, List.head_cons]

/-- At or beneath a top-level path lies what begins with its name. -/
theorem startsWith_iff_top_eq (h : top.parent? = none) :
    p.startsWith top = true ↔ top.top = p.top := by
  refine ⟨fun hstarts => (top_of_startsWith hstarts).symm, fun he => startsWith_iff.2 ?_⟩
  rw [segments_of_parent?_eq_none h, name_eq_top h, he]
  exact ⟨p.segments.tail, List.cons_head_tail p.nonempty⟩

end DataPath

namespace Store

/-! ## Names that are taken

A merge happens name by name at the top. Under one name, either the container has
something or it has not; this decides what is there afterwards. -/

/-- The top-level paths of another store that are **taken** in this one, in order. These are the
conflicts, which are errors or warnings, depending on whether they may be replaced. -/
def taken (s loaded : Store) : List DataPath := loaded.topLevel.filter s.contains

/-- **A store has been merged into another** at its top-level names. It is said twice what lies
there, by paths and by copies of whole trees, because copies also show the order of children. -/
structure Merges (s loaded t : Store) : Prop where
  /-- Under a name of the store that was merged lies what it has, and nothing else. -/
  replaced : ∀ top ∈ loaded.topLevel, ∀ path, path.startsWith top = true →
    t.get? path = loaded.get? path
  /-- Under every other name lies what was there. -/
  kept : ∀ path, (∀ top ∈ loaded.topLevel, path.startsWith top = false) → t.get? path = s.get? path
  /-- Whole trees come from the one store. -/
  copied : ∀ top ∈ loaded.topLevel, t.snapshot? top = loaded.snapshot? top
  /-- Or they come from the other. -/
  spared : ∀ top ∈ s.topLevel, top ∉ loaded.topLevel → t.snapshot? top = s.snapshot? top
  /-- There are no other names. -/
  names : ∀ top, top ∈ t.topLevel ↔ top ∈ loaded.topLevel ∨ top ∈ s.topLevel
  /-- A store without objects becomes the one that was merged into it. -/
  whole : (∀ path, s.get? path = none) → t.get? = loaded.get? ∧ t.SameViews loaded

variable {s loaded t : Store} {path top : DataPath}

/-- A top-level path has a copy. -/
theorem Sound.exists_snapshot? (h : s.Sound) (hpath : path ∈ s.topLevel) :
    ∃ subtree, s.snapshot? path = some subtree := by
  cases hcopy : s.snapshot? path with
  | some subtree => exact ⟨subtree, rfl⟩
  | none =>
    have hthere := (h.mem_topLevel.1 hpath).2
    rw [Coherent.get?_eq_none_of_snapshot? hcopy] at hthere
    cases hthere

/-- **A copy is the same** where two stores have the same objects at and beneath a path. A copy is
a lawful tree, and such a tree is determined by the objects at its places. -/
theorem Sound.snapshot?_congr (hs : s.Sound) (ht : t.Sound) (hpath : path ∈ s.topLevel)
    (hsame : ∀ q, q.startsWith path = true → t.get? q = s.get? q) :
    t.snapshot? path = s.snapshot? path := by
  obtain ⟨subtree, hcopy⟩ := hs.exists_snapshot? hpath
  have htree := hs.coherent.hasTree_snapshot? hcopy
  rw [hcopy]
  refine ht.coherent.snapshot?_eq ⟨htree.lawful, fun q rest hrest => ?_⟩
  rw [hsame q (by rw [DataPath.startsWith_eq_isSome, hrest]; rfl), htree.objects q rest hrest]

/-- A path with an object lies under a top-level name. -/
theorem Sound.exists_mem_topLevel (h : s.Sound) (hpath : (s.get? path).isSome) :
    ∃ top ∈ s.topLevel, path.startsWith top = true := by
  let first : DataPath := .single path.top (path.valid _ (List.head_mem path.nonempty))
  have hnone : first.parent? = none := if_pos (Nat.le_refl 1)
  have hstarts : path.startsWith first = true := (DataPath.startsWith_iff_top_eq hnone).2 rfl
  obtain ⟨rest, hrest⟩ := Option.isSome_iff_exists.1 (DataPath.startsWith_eq_isSome _ _ ▸ hstarts)
  exact ⟨first, h.mem_topLevel.2 ⟨hnone, h.placed.closed.isSome_of_relative? hrest hpath⟩, hstarts⟩

end Store

namespace Filter

open Store (taken Merges)

namespace ReadOptions

variable {o : ReadOptions} {s loaded t : Store} {map : PathMap} {path top : DataPath}

/-- Every top-level object of the container is brought in. -/
theorem map_path_edits (h : loaded.Sound) : (o.edits loaded).map Edit.path = loaded.topLevel := by
  rw [edits, List.map_filterMap]
  refine (List.filterMap_congr fun path hpath => ?_).trans List.filterMap_some
  obtain ⟨subtree, hcopy⟩ := h.exists_snapshot? hpath
  rw [hcopy]
  rfl

/-- **What the edits make of a map**: under the names of the container, its objects. The other
edits concern other top-level names, so just one of them matters for the path. -/
theorem onEach_edits_replaced (h : loaded.Sound) (htop : top ∈ loaded.topLevel)
    (hpath : path.startsWith top = true) :
    Edit.onEach map (o.edits loaded) path = loaded.get? path := by
  obtain ⟨subtree, hcopy⟩ := h.exists_snapshot? htop
  have hedit : .insert top subtree o.overwrite ∈ o.edits loaded :=
    List.mem_filterMap.2 ⟨top, htop, by rw [hcopy]; rfl⟩
  have hplain : ∀ edit ∈ o.edits loaded, edit.IsPlain := fun edit hedit => by
    obtain ⟨_, _, rfl, -, hplain⟩ := exists_of_mem_edits h hedit
    exact hplain
  rw [(o.apart_edits h).onEach_apply hplain hedit (DataPath.top_of_startsWith hpath).symm]
  obtain ⟨rest, hrest⟩ := Option.isSome_iff_exists.1 (DataPath.startsWith_eq_isSome _ _ ▸ hpath)
  show PathMap.graft top subtree.tree map path = _
  rw [PathMap.graft, hrest, (h.coherent.hasTree_snapshot? hcopy).objects path rest hrest]

/-- Under other names, nothing changes. -/
theorem onEach_edits_kept (h : loaded.Sound)
    (hpath : ∀ top ∈ loaded.topLevel, path.startsWith top = false) :
    Edit.onEach map (o.edits loaded) path = map path := by
  refine Edit.onEach_of_apart (fun edit hedit => ?_) fun edit hedit htop => ?_
  · obtain ⟨_, _, rfl, -, hplain⟩ := exists_of_mem_edits h hedit
    exact hplain
  · obtain ⟨top, _, rfl, hmem, -⟩ := exists_of_mem_edits h hedit
    have hstarts := (DataPath.startsWith_iff_top_eq (Store.parent?_of_mem_topLevel hmem)).2 htop
    rw [hpath top hmem] at hstarts
    cases hstarts

/-- **Making the edits merges the container** into the store. Only what the store has at each path
is used of it, and that it is sound. -/
theorem merges (hs : s.Sound) (hl : loaded.Sound) (ht : t.Sound)
    (hget : t.get? = Edit.onEach s.get? (o.edits loaded)) : s.Merges loaded t := by
  have hreplaced : ∀ top ∈ loaded.topLevel, ∀ path, path.startsWith top = true →
      t.get? path = loaded.get? path := fun top htop path hpath => by
    rw [hget, onEach_edits_replaced hl htop hpath]
  have hkept : ∀ path, (∀ top ∈ loaded.topLevel, path.startsWith top = false) →
      t.get? path = s.get? path := fun path hpath => by rw [hget, onEach_edits_kept hl hpath]
  -- A top-level path lies under no other.
  have hother : ∀ {top : DataPath}, top.parent? = none → top ∉ loaded.topLevel →
      ∀ path, path.startsWith top = true → t.get? path = s.get? path := by
    intro top hnone htop path hpath
    refine hkept path fun other hmem => Bool.eq_false_iff.2 fun hstarts => htop ?_
    have hparent := Store.parent?_of_mem_topLevel hmem
    have hsame : top = other := DataPath.ext (by
      rw [DataPath.segments_of_parent?_eq_none hnone, DataPath.segments_of_parent?_eq_none hparent,
        DataPath.name_eq_top hnone, DataPath.name_eq_top hparent,
        ← DataPath.top_of_startsWith hpath, DataPath.top_of_startsWith hstarts])
    exact hsame ▸ hmem
  refine ⟨hreplaced, hkept, fun top htop => ?_, fun top htop hnot => ?_, fun top => ?_,
    fun hempty => ?_⟩
  · exact hl.snapshot?_congr ht htop (hreplaced top htop)
  · exact hs.snapshot?_congr ht htop (hother (Store.parent?_of_mem_topLevel htop) hnot)
  · by_cases htop : top ∈ loaded.topLevel
    · obtain ⟨hnone, hthere⟩ := hl.mem_topLevel.1 htop
      rw [ht.mem_topLevel, hreplaced top htop top top.startsWith_self]
      exact ⟨fun _ => Or.inl htop, fun _ => ⟨hnone, hthere⟩⟩
    · rw [or_iff_right htop, ht.mem_topLevel, hs.mem_topLevel]
      refine and_congr_right fun hnone => ?_
      rw [hother hnone htop top top.startsWith_self]
  · have hsame : t.get? = loaded.get? := funext fun path => by
      cases hpath : loaded.get? path with
      | some object =>
        obtain ⟨top, htop, hstarts⟩ := hl.exists_mem_topLevel (Option.isSome_of_eq_some hpath)
        rw [hreplaced top htop path hstarts, hpath]
      | none =>
        by_cases hunder : ∃ top ∈ loaded.topLevel, path.startsWith top = true
        · obtain ⟨top, htop, hstarts⟩ := hunder
          rw [hreplaced top htop path hstarts, hpath]
        · rw [hkept path fun top htop => Bool.eq_false_iff.2 fun h => hunder ⟨top, htop, h⟩,
            hempty path]
    exact ⟨hsame, ht.sameViews hl hsame⟩

/-! ## What is found beforehand

The check in advance is exact for edits under different top-level names, so what it finds
can be listed: one finding for each name that is taken, an error or a warning. -/

/-- The warnings are about the paths that are taken. -/
theorem notices_eq (h : loaded.Sound) : o.notices s (o.edits loaded)
    = if o.overwrite then ⟨[], (s.taken loaded).map fun path =>
        ⟨.replacedExisting, s!"'{path.text}' will be replaced", none⟩⟩ else .none := by
  rw [notices, taken, ← map_path_edits (o := o) h, List.filter_map, List.map_map]
  rfl

/-- **The check finds the paths that are taken**, if they may not be replaced. Trees are brought
in at the top, where there is no object above to refuse them. -/
theorem checkEdits_eq (hs : s.Sound) (h : loaded.Sound) : checkEdits s (o.edits loaded)
    = if o.overwrite then .none else ⟨(s.taken loaded).map fun path =>
        ⟨.duplicatePath, (StoreError.duplicatePath path).message, none⟩, []⟩ := by
  have hfaults : Outlook.faults ⟨s, [], []⟩ (o.edits loaded)
      = (loaded.topLevel.filter fun path => s.contains path && !o.overwrite).map
          .duplicatePath := by
    rw [← map_path_edits (o := o) h]
    refine Outlook.faults_of_topLevel hs (o.apart_edits h) (fun edit hedit => ?_)
      fun _ _ other (hother : other ∈ []) => absurd hother List.not_mem_nil
    obtain ⟨path, subtree, rfl, hpath, -⟩ := exists_of_mem_edits h hedit
    exact ⟨path, subtree, rfl, Store.parent?_of_mem_topLevel hpath⟩
  rw [checkEdits, hfaults, taken]
  cases o.overwrite with
  | true => simp [Findings.none]
  | false => simp [Function.comp_def, StoreError.code]

end ReadOptions

/-- The error about a path that is taken. -/
def conflict (path : DataPath) : Diagnostic :=
  ⟨.duplicatePath, (StoreError.duplicatePath path).message, some readName⟩

/-- The warning about a path whose object is replaced. -/
def replacement (path : DataPath) : Diagnostic :=
  ⟨.replacedExisting, s!"'{path.text}' will be replaced", some readName⟩

/-- **What reading a container comes to**, as findings and a store. The `result` is that of the
execution, and what is said of it covers both values of the option. -/
structure ReadMerges (s loaded : Store) (overwrite : Bool) (result : Findings × Store) : Prop where
  /-- The top-level paths of the container are all that there are, in order of their names. -/
  names : (loaded.topLevel.map DataPath.name).Pairwise (· < ·)
    ∧ ∀ path, path ∈ loaded.topLevel ↔ path.parent? = none ∧ (loaded.get? path).isSome
  /-- Without overwriting, every path that is taken is an error. -/
  refused : overwrite = false → result.1 = ⟨(s.taken loaded).map conflict, []⟩
  /-- If one is taken, nothing is done. -/
  unchanged : overwrite = false → s.taken loaded ≠ [] → result.2 = s
  /-- With overwriting, every path that is taken is a warning, and there are no errors. -/
  warned : overwrite = true → result.1 = ⟨[], (s.taken loaded).map replacement⟩
  /-- Without errors, the container is merged into the store. -/
  merged : result.1.hasErrors = false → s.Merges loaded result.2

variable {files : FileSystem} {s loaded : Store} {args : Arguments} {file : String}
  {overwrite : Bool} {bytes : Bytes}

/-- What can be read is a file. -/
theorem isFile_of_read (h : files.read file = .ok bytes) : files.isFile file := by
  obtain ⟨entry, hentry, h⟩ := bind_eq_ok_iff.1 h
  rw [FileSystem.isFile, hentry]
  cases entry with
  | directory => cases h
  | file contents => rfl

/-- **What is found beforehand**, if the arguments can be bound and the plan has no errors. What
is left is then the findings of the plan and those of its edits. -/
theorem preflight_eq {f : Filter} (hbound : (Meshwork.bind f.parameters args).2.hasErrors = false)
    (hplan : (f.plan files s (Meshwork.bind f.parameters args).1).findings.hasErrors = false) :
    let plan := f.plan files s (Meshwork.bind f.parameters args).1
    f.preflight files s args = (plan.findings ++ checkEdits s plan.edits).attributed f.name := by
  intro plan
  have hnone : (Meshwork.bind f.parameters args).2 = .none := by
    rw [Findings.hasErrors, Bool.not_eq_false', List.isEmpty_iff] at hbound
    exact congrArg (Findings.mk · []) hbound
  have hdeclare : f.declare files s args = ⟨plan.findings.attributed f.name, plan.edits⟩ := by
    rw [declare, prepare_eq, hnone]
    rfl
  rw [preflight, checkPlan, hdeclare, Findings.hasErrors_attributed, hplan,
    if_neg Bool.false_ne_true, Findings.attributed_append]

section

variable (hbound : (Meshwork.bind readStore.parameters args).2.hasErrors = false)
  (hfile : (Meshwork.bind readStore.parameters args).1.filePath "file_path" = .ok file)
  (hoverwrite : (Meshwork.bind readStore.parameters args).1.bool "overwrite" = .ok overwrite)
  (hread : files.read file = .ok bytes) (hdecode : Container.decode bytes = .ok loaded)

include hfile hoverwrite hread hdecode in
/-- The plan is to bring in all that the container has at the top. -/
theorem readStore_plan_eq : readStore.plan files s (Meshwork.bind readStore.parameters args).1
    = ⟨ReadOptions.notices ⟨file, overwrite⟩ s (ReadOptions.edits ⟨file, overwrite⟩ loaded),
        ReadOptions.edits ⟨file, overwrite⟩ loaded⟩ := by
  have hoptions : ReadOptions.ofArguments (Meshwork.bind readStore.parameters args).1
      = .ok ⟨file, overwrite⟩ := bind_eq_ok_iff.2 ⟨file, argument_eq_ok hfile,
    bind_eq_ok_iff.2 ⟨overwrite, argument_eq_ok hoverwrite, rfl⟩⟩
  have hload : ReadOptions.load ⟨file, overwrite⟩ files
      = .ok (ReadOptions.edits ⟨file, overwrite⟩ loaded) :=
    bind_eq_ok_iff.2 ⟨bytes, mapError_eq_ok_iff.2 hread,
      bind_eq_ok_iff.2 ⟨loaded, mapError_eq_ok_iff.2 hdecode, rfl⟩⟩
  have hrequire : requireFile files file = .ok () := if_pos (isFile_of_read hread)
  have hplan : planRead files s (Meshwork.bind readStore.parameters args).1 = .ok _ :=
    bind_eq_ok_iff.2 ⟨_, hoptions, bind_eq_ok_iff.2 ⟨(), hrequire, bind_eq_ok_iff.2 ⟨_, hload, rfl⟩⟩⟩
  rw [readStore_plan, hplan]

include hbound hfile hoverwrite hread hdecode in
/-- **All that is found beforehand is what is taken.** Without overwriting these are errors, and
with it warnings that say what will be replaced. -/
theorem preflight_readStore (hs : s.Sound) : readStore.preflight files s args
    = if overwrite then ⟨[], (s.taken loaded).map replacement⟩
      else ⟨(s.taken loaded).map conflict, []⟩ := by
  have hl := Container.sound_decode hdecode
  have hplan := readStore_plan_eq (s := s) hfile hoverwrite hread hdecode
  rw [preflight_eq hbound, hplan]
  · dsimp only
    -- Notices and faults are both about the paths that are taken: the ones if they may be
    -- overwritten, the others if not.
    rw [ReadOptions.notices_eq hl, ReadOptions.checkEdits_eq hs hl]
    cases overwrite with
    | true =>
      show Findings.mk [] ((List.map _ _ ++ []).map _) = Findings.mk [] _
      rw [List.append_nil, List.map_map]
      rfl
    | false =>
      show Findings.mk (List.map _ (List.map _ _)) [] = Findings.mk _ []
      rw [List.map_map]
      rfl
  · rw [hplan]
    exact (ReadOptions.notices_regular ⟨file, overwrite⟩ s _).1

end

/-- **Reading a container into a reachable store** merges it at the top, or is refused for the
names that are taken. -/
theorem readMerges_after (operations : List Operation) (args : Arguments) (context : RunContext)
    (state : RunState) (hrunning : (Run.isStopped context state).1 = false)
    (hbound : (Meshwork.bind readStore.parameters args).2.hasErrors = false)
    (hfile : (Meshwork.bind readStore.parameters args).1.filePath "file_path" = .ok file)
    (hoverwrite : (Meshwork.bind readStore.parameters args).1.bool "overwrite" = .ok overwrite)
    (hread : state.files.read file = .ok bytes) (hdecode : Container.decode bytes = .ok loaded) :
    ReadMerges (.after operations) loaded overwrite
      (readStore.execute (.after operations) args context state).1 := by
  have hs := Store.sound_after operations
  generalize Store.after operations = s at hs ⊢
  have hl := Container.sound_decode hdecode
  have hbefore := preflight_readStore hbound hfile hoverwrite hread hdecode hs
  have hnames : (loaded.topLevel.map DataPath.name).Pairwise (· < ·) := by
    refine List.pairwise_map.2 (hl.pairwise_topLevel_lt.imp_of_mem fun hpath hother hlt => ?_)
    rwa [DataPath.name_eq_top (Store.parent?_of_mem_topLevel hpath),
      DataPath.name_eq_top (Store.parent?_of_mem_topLevel hother)]
  by_cases hrefused : overwrite = false ∧ s.taken loaded ≠ []
  -- The paths that are taken are found, and the execution ends.
  · obtain ⟨rfl, htaken⟩ := hrefused
    rw [if_neg Bool.false_ne_true] at hbefore
    have herrors : (readStore.preflight state.files s args).hasErrors = true := by
      rw [hbefore, Findings.hasErrors]
      simpa using htaken
    rw [readStore.execute_apply s args hrunning]
    dsimp only
    rw [if_pos herrors, hbefore]
    refine ⟨⟨hnames, fun path => hl.mem_topLevel⟩, fun _ => rfl, fun _ _ => rfl,
      fun h => absurd h Bool.false_ne_true, fun h => ?_⟩
    rw [hbefore] at herrors
    cases herrors.symm.trans h
  -- Nothing else is in the way, and the edits of the plan are made.
  · have hclean : (readStore.preflight state.files s args).hasErrors = false := by
      rw [hbefore]
      cases overwrite with
      | true => rfl
      | false => simp_all [Findings.hasErrors]
    obtain ⟨haccepted, hwork⟩ := straight_readStore.acceptedEach hs hclean context
      (Run.isStopped context state).2 rfl
    have hplan := readStore_plan_eq (s := s) hfile hoverwrite hread hdecode
    rw [hplan] at haccepted hwork
    obtain ⟨hresult, hcommit⟩ := readStore.execute_of_acceptedEach hs args hrunning hclean
      (by rw [hwork]; rfl) (by rw [hwork]; exact haccepted)
    rw [hwork] at hresult hcommit
    have hfound : (readStore.execute s args context state).1.1
        = readStore.preflight state.files s args := by
      rw [hresult]
      show Findings.mk (_ ++ []) (_ ++ []) = _
      rw [List.append_nil, List.append_nil]
    refine ⟨⟨hnames, fun path => hl.mem_topLevel⟩, ?_, ?_, ?_, fun _ => ?_⟩
    · rintro rfl
      rw [hfound, hbefore, if_neg Bool.false_ne_true]
    · exact fun hfalse htaken => absurd ⟨hfalse, htaken⟩ hrefused
    · rintro rfl
      rw [hfound, hbefore, if_pos rfl]
    · rcases hs.commit_cases _ with ⟨-, t, hok, ht, hget⟩ | ⟨hnot, -⟩
      · obtain ⟨-, rfl⟩ := Prod.mk.inj (hok.symm.trans hcommit)
        exact ReadOptions.merges hs hl ht hget
      · exact absurd haccepted hnot

/-- Of the two names of a container one is taken: its object is replaced, with what lies beneath. -/
theorem readMerges_after_replacing :
    let a := DataPath.single "A" (by decide)
    let b := DataPath.single "B" (by decide)
    let old := a.push "old" (by decide)
    let entries : List Container.Entry := [⟨a, .group⟩, ⟨b, .attributeMatrix 3⟩]
    let bytes := bytesOf (Container.Document.json ⟨Container.format, Container.version, ⟨0, 0⟩,
      Container.checksum entries, entries⟩).pretty
    let loaded := Store.after [.create a .group false, .create b (.attributeMatrix ⟨3⟩) false]
    let state := RunState.start ⟨[(["c.mpc"], .file bytes)], []⟩
    let args : Arguments := [("file_path", .text "c.mpc"), ("overwrite", .bool true)]
    let result :=
      (readStore.execute (.after [.createGroups old]) args ⟨⟨0, 0⟩, fun _ => false⟩ state).1
    ReadMerges (.after [.createGroups old]) loaded true result
      ∧ result.1 = ⟨[], [replacement a]⟩ ∧ result.2.get? old = none := by
  intro a b old entries bytes loaded state args result
  have hparse : Container.parse bytes = .ok ⟨Container.format, Container.version, ⟨0, 0⟩,
      Container.checksum entries, entries⟩ :=
    Container.parse_pretty ⟨by decide, Or.inl (by decide)⟩ rfl rfl rfl
  have hdecode : Container.decode bytes = .ok loaded := (Container.decode_of_parse hparse).trans rfl
  -- What the file holds does not matter for where it is found.
  have hread : ∀ bytes, FileSystem.read ⟨[(["c.mpc"], .file bytes)], []⟩ "c.mpc" = .ok bytes :=
    fun _ => rfl
  have hmerges := readMerges_after [.createGroups old] args ⟨⟨0, 0⟩, fun _ => false⟩ state rfl rfl
    rfl rfl (hread bytes) hdecode
  have htaken : (Store.after [.createGroups old]).taken loaded = [a] := by decide +kernel
  have htop : a ∈ loaded.topLevel := by decide +kernel
  have hfound := hmerges.warned rfl
  refine ⟨hmerges, by rw [hfound, htaken]; rfl, ?_⟩
  have hmerged := hmerges.merged (by rw [hfound]; rfl)
  rw [hmerged.replaced a htop old (by decide)]
  decide +kernel

end Filter

end Meshwork
