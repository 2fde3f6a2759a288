import Meshwork.Proofs.Filter.Faithful
import Meshwork.Proofs.Parameter.Rebinding

/-!
# What the filters on the structure change

A filter that makes a group or takes out an object is given one path and asks for one edit there
(`Filter.EditsOne`). What is wrong with the arguments or the edit is found beforehand, and then
nothing is done; if nothing is wrong, the edit is made. So an execution reports just what was
found beforehand, in the same order (`Filter.Predicted`).

The store that it leaves is the old one with one empty group more (`Store.AddsGroup`), or without
the object and all beneath it (`Store.TakesOut`). Both say so for every view of the store.
-/

namespace Meshwork

/-! ## One object more or less

The store before and after are compared in every view: objects, children, lists of paths,
and their number. -/

namespace Store

variable {s t : Store} {path : DataPath}

/-- **A group may be made** at a free path, below an object that may hold it. At the top there is
nothing above, and only the path itself has to be free. -/
def HasRoom (s : Store) (path : DataPath) : Prop :=
  s.get? path = none ∧ ∀ above, path.parent? = some above →
    ∃ holder, s.get? above = some holder ∧ Fits holder path.name .group

/-- **A store has one empty group more** than another. The store after is described by what it has
at each path, how many objects it has and what lies in the group. -/
structure AddsGroup (s : Store) (path : DataPath) (t : Store) : Prop where
  /-- There was nothing at the path. -/
  free : s.get? path = none
  /-- There is a group now, and nothing else changed. -/
  represents : t.Represents fun other => if other = path then some .group else s.get? other
  /-- The group is empty. -/
  empty : t.children? path = some []
  /-- It is the one object more. -/
  len : t.len = s.len + 1

/-- **A store lacks an object** of another, with all beneath it. The list of what is gone has each
path once, so that the counts can be compared. -/
structure TakesOut (s : Store) (path : DataPath) (t : Store) : Prop where
  /-- There was an object at the path. -/
  there : (s.get? path).isSome
  /-- There is nothing at the path or beneath it now, and nothing else changed. -/
  represents : t.Represents fun other => if other.startsWith path then none else s.get? other
  /-- The objects that were there are those that are missing. -/
  len : ∃ gone : List DataPath, gone.Nodup
    ∧ (∀ other, other ∈ gone ↔ other.startsWith path = true ∧ (s.get? other).isSome)
    ∧ t.len + gone.length = s.len

namespace Sound

/-- The store with the map of another, but for a group at a free path. -/
theorem addsGroup (hs : s.Sound) (ht : t.Sound) (hfree : s.get? path = none)
    (hget : t.get? = fun other => if other = path then some .group else s.get? other) :
    s.AddsGroup path t := by
  have hmap := hget ▸ ht.represents
  refine ⟨hfree, hmap, ?_, ?_⟩
  · obtain ⟨children, hchildren, -, hmem⟩ := hmap.children path (by rw [if_pos rfl]; rfl)
    refine hchildren.trans (congrArg some (List.eq_nil_iff_forall_not_mem.2 fun child hchild => ?_))
    obtain ⟨habove, hthere⟩ := (hmem child).1 hchild
    -- A child would have been there before, beneath nothing.
    have hne : child ≠ path := fun he => by
      have hself := DataPath.relative?_above habove
      rw [he, DataPath.relative?_self] at hself
      cases hself
    rw [if_neg hne] at hthere
    have hpath := hs.placed.closed child path habove hthere
    rw [hfree] at hpath
    cases hpath
  · obtain ⟨paths, hnodup, hmem, hlen⟩ := hs.represents.len
    have hnew : path ∉ paths := fun h => by
      rw [hmem, hfree] at h
      cases h
    rw [hmap.len_eq (List.nodup_cons.2 ⟨hnew, hnodup⟩) fun other => ?_, List.length_cons, hlen]
    rw [List.mem_cons, hmem]
    by_cases he : other = path <;> simp [he]

/-- The store with the map of another, but for what lies at or beneath a path. -/
theorem takesOut (hs : s.Sound) (ht : t.Sound) (hthere : (s.get? path).isSome)
    (hget : t.get? = PathMap.prune path s.get?) : s.TakesOut path t := by
  have hmap : t.Represents fun other => if other.startsWith path then none else s.get? other := by
    have hprune : PathMap.prune path s.get?
        = fun other => if other.startsWith path then none else s.get? other := funext fun other => by
      rw [PathMap.prune_apply, DataPath.startsWith_eq_isSome]
    exact (hget.trans hprune) ▸ ht.represents
  refine ⟨hthere, hmap, ?_⟩
  obtain ⟨paths, hnodup, hmem, hlen⟩ := hs.represents.len
  have hleft := hmap.len_eq (hnodup.filter fun other => !other.startsWith path) fun other => by
    rw [List.mem_filter, hmem]
    cases other.startsWith path <;> simp
  refine ⟨paths.filter (·.startsWith path), hnodup.filter _, fun other => ?_, ?_⟩
  · rw [List.mem_filter, hmem, and_comm]
  · rw [hleft, ← hlen, Nat.add_comm]
    exact (List.length_eq_length_filter_add _).symm

end Sound

end Store

namespace Filter

variable {f : Filter} {files : FileSystem} {s : Store} {args : Arguments}

/-! ## Executions of straight filters

For these, the findings of an execution are those made beforehand, followed by nothing. -/

namespace Straight

/-- **Nothing is wrong beforehand** if the arguments can be bound, the plan has no errors and its
edits are accepted. For a straight filter the check of the edits is replaced by what it decides. -/
theorem hasErrors_preflight_eq_false_iff (h : f.Straight) (hs : s.Sound) :
    (f.preflight files s args).hasErrors = false
      ↔ (Meshwork.bind f.parameters args).2.hasErrors = false
        ∧ (f.plan files s (Meshwork.bind f.parameters args).1).findings.hasErrors = false
        ∧ Edit.AcceptedEach s.get? (f.plan files s (Meshwork.bind f.parameters args).1).edits := by
  rw [f.hasErrors_preflight_eq_false_iff]
  generalize hplan : f.plan files s (Meshwork.bind f.parameters args).1 = plan
  have hapart : Edit.Apart plan.edits := hplan ▸ h.apart files s _
  have hplain : ∀ edit ∈ plan.edits, edit.IsPlain := hplan ▸ h.plain files s _
  refine and_congr_right fun _ => and_congr_right fun _ =>
    ⟨hapart.acceptedEach_of_checkEdits hplain hs, fun haccepted => ?_⟩
  rw [hapart.checkEdits_of_acceptedEach hplain hs haccepted]
  rfl

/-- **An execution of a straight filter** finds what was found beforehand. With an error nothing
is done, and without one the edits of the plan are made. -/
theorem execute_cases (h : f.Straight) (hs : s.Sound) (args : Arguments) {context : RunContext}
    {state : RunState} (hrunning : (Run.isStopped context state).1 = false) :
    let before := f.preflight state.files s args
    let edits := (f.plan state.files s (Meshwork.bind f.parameters args).1).edits
    let result := (f.execute s args context state).1
    result.1 = before ∧ (before.hasErrors = true → result.2 = s)
      ∧ (before.hasErrors = false → result.2.Sound ∧ result.2.get? = Edit.onEach s.get? edits) := by
  intro before edits result
  cases hbefore : before.hasErrors with
  | true =>
    have hresult : result = (before, s) := by
      refine (f.execute_apply s args hrunning).trans ?_
      dsimp only
      exact if_pos hbefore
    exact ⟨congrArg Prod.fst hresult, fun _ => congrArg Prod.snd hresult, nofun⟩
  | false =>
    obtain ⟨haccepted, hwork⟩ := h.acceptedEach hs hbefore context
      (Run.isStopped context state).2 rfl
    obtain ⟨hresult, hcommit⟩ := f.execute_of_acceptedEach hs args hrunning hbefore
      (by rw [hwork]; rfl) (by rw [hwork]; exact haccepted)
    rw [hwork] at hresult hcommit
    refine ⟨hresult.trans ?_, nofun, fun _ => ?_⟩
    -- The work of a straight filter finds nothing more.
    · show Findings.mk (_ ++ []) (_ ++ []) = _
      rw [List.append_nil, List.append_nil]
    · rcases hs.commit_cases edits with ⟨-, t, hok, ht, hget⟩ | ⟨hrefused, -⟩
      · obtain ⟨-, rfl⟩ := Prod.mk.inj (hok.symm.trans hcommit)
        exact ⟨ht, hget⟩
      · exact absurd haccepted hrefused

end Straight

/-! ## Filters with one path

A set of arguments is one path exactly if binding succeeds, which says what these filters
accept without the machinery of parameters. -/

/-- **The arguments are one path**, and nothing else. These are all arguments that can be bound
for a filter with one path for a parameter. -/
def Selects (args : Arguments) (path : DataPath) : Prop :=
  (∀ key ∈ args.keys, key = "data_path") ∧ args.dataPath "data_path" = .ok path

section

variable {title help : String} {path : DataPath}

/-- The look-up of the path, as that of a parameter of its kind. -/
theorem lookUp_dataPath_eq_ok_iff {value : ParameterValue} :
    args.lookUp .dataPath "data_path" = .ok value
      ↔ ∃ path, args.dataPath "data_path" = .ok path ∧ .dataPath path = value :=
  map_eq_ok_iff

/-- **The arguments can be bound** if they are one path. An argument under any other key is an
error, and so is a text that is no path. -/
theorem hasErrors_bind_pathParameter (title help : String) :
    (Meshwork.bind [pathParameter title help] args).2.hasErrors = false
      ↔ ∃ path, Selects args path := by
  have hvalue : ∀ value, (pathParameter title help).bindOne args = .ok value
      ↔ ∃ path, args.dataPath "data_path" = .ok path ∧ .dataPath path = value := fun value => by
    rw [← lookUp_dataPath_eq_ok_iff, Arguments.lookUp_eq_ok_iff, Parameter.bindOne_eq_ok_iff]
    simp [pathParameter, Parameter.coerce_eq_ok_iff]
  rw [hasErrors_bind_eq_false_iff]
  simp only [List.mem_singleton, exists_eq_left, forall_eq, hvalue, Selects]
  constructor
  · rintro ⟨hkeys, value, path, hpath, -⟩
    exact ⟨path, fun key hkey => (hkeys key hkey).symm, hpath⟩
  · rintro ⟨path, hkeys, hpath⟩
    exact ⟨fun key hkey => (hkeys key hkey).symm, _, path, hpath, rfl⟩

/-- **The filter sees the path** that is given. A text that was given for the path has been read
by then. -/
theorem targetPath_bind (h : Selects args path) :
    targetPath (Meshwork.bind [pathParameter title help] args).1 = .ok path := by
  have hclean := (hasErrors_bind_pathParameter title help).2 ⟨path, h⟩
  have hgiven := lookUp_dataPath_eq_ok_iff.2 ⟨path, h.2, rfl⟩
  obtain ⟨given, hfound, -⟩ := Arguments.lookUp_eq_ok_iff.1 hgiven
  have hkept : (Meshwork.bind [pathParameter title help] args).1.lookUp .dataPath "data_path"
      = args.lookUp .dataPath "data_path" :=
    lookUp_bind (p := pathParameter title help) (List.pairwise_singleton _ _) hclean
      List.mem_cons_self (Option.isSome_of_eq_some hfound)
  obtain ⟨_, hpath, he⟩ := lookUp_dataPath_eq_ok_iff.1 (hkept.trans hgiven)
  cases he
  exact argument_eq_ok hpath

end

/-! ## Predictions

What is predicted is stated for any filter that makes one edit at its path, and then for
the two of the library. -/

/-- **A filter makes one edit** at the path that it is given. Creating a group and deleting an
object are both of this kind, and what is said of them is proved of it. -/
structure EditsOne (f : Filter) (edit : DataPath → Edit) : Prop where
  /-- The edit is announced. -/
  straight : f.Straight
  /-- The path is the one parameter. -/
  parameters : ∃ title help, f.parameters = [pathParameter title help]
  /-- The files do not matter. -/
  files : ∀ files files' s args, f.plan files s args = f.plan files' s args
  /-- The plan is the edit, unless the plan has an error, and then the edit would be refused. -/
  plan : ∀ files s args path, s.Sound → targetPath args = .ok path →
    (edit path).Accepted s.get? ∨ (f.plan files s args).findings.hasErrors = false →
      f.plan files s args = ⟨.none, [edit path]⟩

/-- **An execution is as it was predicted.** The `result` is that of the execution, with its
findings and the store that it leaves. `Possible` says where the change can be made, and `Changed`
what the store is after it. -/
structure Predicted (f : Filter) (s : Store) (args : Arguments) (Possible : DataPath → Prop)
    (Changed : DataPath → Store → Prop) (result : Findings × Store) : Prop where
  /-- Just what is found beforehand is found, whatever the files are. -/
  findings : ∀ files, result.1 = f.preflight files s args
  /-- With an error, nothing is done. -/
  unchanged : result.1.hasErrors = true → result.2 = s
  /-- There is no error if the arguments are one path, and the change is possible there. -/
  clean_iff : result.1.hasErrors = false ↔ ∃ path, Selects args path ∧ Possible path
  /-- Without an error, the change is made at the path that is given. -/
  changed : result.1.hasErrors = false →
    ∃ path, args.dataPath "data_path" = .ok path ∧ Changed path result.2

namespace EditsOne

variable {edit : DataPath → Edit}

/-- Files do not matter for what is found beforehand. -/
theorem preflight_eq (h : f.EditsOne edit) (files files' : FileSystem) (s : Store)
    (args : Arguments) : f.preflight files s args = f.preflight files' s args := by
  rw [preflight, preflight, declare, declare, prepare_eq, prepare_eq, h.files files files']

/-- **Nothing is wrong beforehand** if the arguments are one path that accepts the edit. So a
preflight decides whether the execution will succeed. -/
theorem hasErrors_preflight_iff (h : f.EditsOne edit) (hs : s.Sound) :
    (f.preflight files s args).hasErrors = false
      ↔ ∃ path, Selects args path ∧ (edit path).Accepted s.get? := by
  obtain ⟨title, help, hparameters⟩ := h.parameters
  rw [h.straight.hasErrors_preflight_eq_false_iff hs, hparameters, hasErrors_bind_pathParameter]
  constructor
  · rintro ⟨⟨path, hpath⟩, hplan, haccepted⟩
    rw [h.plan files s _ path hs (targetPath_bind hpath) (Or.inr hplan)] at haccepted
    exact ⟨path, hpath, haccepted.1⟩
  · rintro ⟨path, hpath, haccepted⟩
    rw [h.plan files s _ path hs (targetPath_bind hpath) (Or.inl haccepted)]
    exact ⟨⟨path, hpath⟩, rfl, haccepted, trivial⟩

/-- **An execution is as it was predicted**, with what the edit means for the change. It is enough
to say when the edit is accepted and what it makes of the map of a store. -/
theorem predicted (h : f.EditsOne edit) (hs : s.Sound) (args : Arguments) {context : RunContext}
    {state : RunState} (hrunning : (Run.isStopped context state).1 = false)
    {Possible : DataPath → Prop} {Changed : DataPath → Store → Prop}
    (hpossible : ∀ path, (edit path).Accepted s.get? ↔ Possible path)
    (hchanged : ∀ path t, Possible path → t.Sound → t.get? = (edit path).on s.get? →
      Changed path t) :
    f.Predicted s args Possible Changed (f.execute s args context state).1 := by
  obtain ⟨hfindings, hunchanged, hmade⟩ := h.straight.execute_cases hs args hrunning
  have hclean := @hasErrors_preflight_iff f state.files s args edit h hs
  simp only [hpossible] at hclean
  rw [← hfindings] at hunchanged hmade hclean
  refine ⟨fun files => hfindings.trans (h.preflight_eq _ _ _ _), hunchanged, hclean, fun hnone => ?_⟩
  obtain ⟨path, hpath, hthere⟩ := hclean.1 hnone
  obtain ⟨ht, hget⟩ := hmade hnone
  obtain ⟨title, help, hparameters⟩ := h.parameters
  rw [h.plan _ s _ path hs (hparameters ▸ targetPath_bind hpath)
    (Or.inl ((hpossible path).2 hthere))] at hget
  exact ⟨path, hpath.2, hchanged path _ hthere ht hget⟩

end EditsOne

theorem editsOne_createGroup : createGroup.EditsOne groupEdit where
  straight := straight_createGroup
  parameters := ⟨_, _, rfl⟩
  files _ _ _ _ := rfl
  plan files s args path _ hpath _ := by rw [createGroup_plan, hpath]

theorem editsOne_deleteData : deleteData.EditsOne .remove where
  straight := straight_deleteData
  parameters := ⟨_, _, rfl⟩
  files _ _ _ _ := rfl
  plan files s args path hs hpath hcases := by
    rw [deleteData_plan, hpath] at hcases ⊢
    dsimp only at hcases ⊢
    rcases hcases with haccepted | hplan
    · rw [hs.coherent.contains_eq]
      exact if_pos haccepted
    · split at hplan
      · rw [if_pos (by assumption)]
      · cases hplan

/-- A group is accepted where there is room for it. -/
theorem accepted_groupEdit_iff {path : DataPath} :
    (groupEdit path).Accepted s.get? ↔ s.HasRoom path := by
  have hfree : (s.get? path = none ∨ false = true) ↔ s.get? path = none :=
    or_iff_left Bool.false_ne_true
  have hplain : (Subtree.leaf .group).tree.Lawful ∧ (Subtree.leaf .group).tree.FitsWithin :=
    ⟨NamedTree.lawful_leaf _, NamedTree.fitsWithin_leaf _⟩
  exact (and_iff_left hplain).trans (and_congr_left' hfree)

/-- **The filters on the structure of a store** come to what is found beforehand, on every store
that operations lead to and for any arguments. -/
theorem predicted_after (operations : List Operation) (args : Arguments) {context : RunContext}
    {state : RunState} (hrunning : (Run.isStopped context state).1 = false) :
    let s := Store.after operations
    createGroup.Predicted s args s.HasRoom s.AddsGroup (createGroup.execute s args context state).1
      ∧ deleteData.Predicted s args (fun path => (s.get? path).isSome) s.TakesOut
          (deleteData.execute s args context state).1 := by
  intro s
  have hs : s.Sound := Store.sound_after operations
  refine ⟨editsOne_createGroup.predicted hs args hrunning (fun _ => accepted_groupEdit_iff)
      fun path t hroom ht hget => hs.addsGroup ht hroom.1 ?_,
    editsOne_deleteData.predicted hs args hrunning (fun _ => Iff.rfl)
      fun path t hthere ht hget => hs.takesOut ht hthere hget⟩
  exact hget.trans (hs.placed.closed.graft_leaf hroom.1 .group)

/-- Below a group, another is made. There is nothing yet that could be taken out at its path. -/
theorem predicted_after_nested :
    let a := DataPath.single "A" (by decide)
    let b := a.push "B" (by decide)
    let s := Store.after [.createGroups a]
    let args : Arguments := [("data_path", .text "A/B")]
    let context : RunContext := ⟨⟨0, 0⟩, fun _ => false⟩
    let state := RunState.start ⟨[], []⟩
    let made := (createGroup.execute s args context state).1
    let taken := (deleteData.execute s args context state).1
    (Run.isStopped context state).1 = false
      ∧ createGroup.Predicted s args s.HasRoom s.AddsGroup made
      ∧ deleteData.Predicted s args (fun path => (s.get? path).isSome) s.TakesOut taken
      ∧ made.1.hasErrors = false ∧ s.AddsGroup b made.2
      ∧ taken.1.errors.map Diagnostic.code = [.pathNotFound] := by
  intro a b s args context state made taken
  have hrunning : (Run.isStopped context state).1 = false := rfl
  have hboth := predicted_after [.createGroups a] args hrunning
  have hmade : createGroup.Predicted s args s.HasRoom s.AddsGroup made := hboth.1
  have htaken : deleteData.Predicted s args (fun path => (s.get? path).isSome) s.TakesOut taken :=
    hboth.2
  have hclean : made.1.hasErrors = false := by decide +kernel
  -- The one path that the arguments name is `A/B`.
  have hadds : s.AddsGroup b made.2 := by
    obtain ⟨path, hpath, hadds⟩ := hmade.changed hclean
    have hb : args.dataPath "data_path" = .ok b := by rfl
    rwa [Except.ok.inj (hb.symm.trans hpath)]
  exact ⟨hrunning, hmade, htaken, hclean, hadds, by decide +kernel⟩

end Filter

end Meshwork
