import Mathlib.Data.List.Induction
import Meshwork.Edit.Basic
import Meshwork.Proofs.Store.Reachable

/-!
# A commit makes all edits or none

What undoes an edit is run on a store that need not be the one the edit
left: the undo steps before it may have given new identifiers. So `Undoes`
speaks of every sound store with the right map from paths to objects. One
edit is undone by its log (`Edit.make_cases`), the logs of edits one after
another undo them all (`attempt_cases`), and no step of them is refused,
because whatever an edit took out or left free is what its undo step finds.

An edit that is refused leaves the very store that it was made on, so the
edits before it are undone from there.
-/

namespace Meshwork

/-! ## Logs and what they undo

A log lists the steps in the order in which they are to be run, the last edit first. Logs
of successive edits are put one before the other, so undoing composes like a path walked
back. -/

/-- The change that an edit asks for, without what would undo it. -/
def Edit.change : Edit → Change Unit
  | groups path => discard (Store.createGroups path)
  | insert path subtree overwrite => discard (Store.attach path subtree overwrite)
  | remove path => discard (Store.detach path)

/-- **A log leads from one map back to another**, on every sound store that has
the one, and no step of it is refused. -/
def Undoes (log : List Undo) (after before : PathMap) : Prop :=
  ∀ s : Store, s.Sound → s.get? = after →
    ∃ s', (log.forM Undo.change).apply s = (.ok (), s') ∧ s'.Sound ∧ s'.get? = before

namespace Undoes

variable {log : List Undo} {map map' map'' : PathMap} {path : DataPath}

theorem nil : Undoes [] map map := fun s hs hget => ⟨s, rfl, hs, hget⟩

theorem append {others : List Undo} (h : Undoes log map'' map') (h' : Undoes others map' map) :
    Undoes (log ++ others) map'' map := by
  intro s hs hget
  obtain ⟨s', happly, hs', hget'⟩ := h s hs hget
  obtain ⟨s'', happly', hs'', hget''⟩ := h' s' hs' hget'
  refine ⟨s'', ?_, hs'', hget''⟩
  rw [Change.apply_forM_append, happly]
  exact happly'

/-- One step. -/
theorem singleton {undo : Undo} (h : ∀ s : Store, s.Sound → s.get? = map' →
    ∃ s', undo.change.apply s = (.ok (), s') ∧ s'.Sound ∧ s'.get? = map) :
    Undoes [undo] map' map := by
  intro s hs hget
  obtain ⟨s', happly, hs', hget'⟩ := h s hs hget
  refine ⟨s', ?_, hs', hget'⟩
  show (undo.change >>= fun _ => pure ()).apply s = _
  rw [Change.apply_bind, happly]
  rfl

/-! ## Undoing one edit

There are three kinds of edits that leave something to undo: what was created is taken
out, what was removed is brought back, and what was replaced is replaced again. The groups
that were created along a path are taken out from the deepest one. -/

/-- Taking out what lies at a path, whatever it was. -/
theorem detach (path : DataPath) (hpath : (map path).isSome) {s : Store} (hs : s.Sound)
    (hget : s.get? = map) :
    ∃ subtree s', (Store.detach path).apply s = (.ok subtree, s') ∧ s'.Sound
      ∧ s'.get? = PathMap.prune path map := by
  rcases hs.detach path with ⟨hnone, -⟩ | ⟨subtree, s', happly, hs', hget', -⟩
  · rw [← hget, hnone] at hpath
    cases hpath
  · exact ⟨subtree, s', happly, hs', hget ▸ hget'⟩

/-- Bringing back what was taken out. -/
theorem attach {previous : Subtree} (hplaced : PathMap.Placed map)
    (htree : PathMap.HasTree map path previous.tree) {s : Store} (hs : s.Sound)
    (hget : s.get? = PathMap.prune path map) :
    ∃ id s', (Store.attach path previous false).apply s = (.ok id, s') ∧ s'.Sound
      ∧ s'.get? = map := by
  have hcheck : s.checkAttach path previous false = .ok () := by
    refine hs.coherent.checkAttach_eq_ok_iff.2
      ⟨⟨Or.inl ?_, fun above habove => ?_⟩, htree.lawful, hplaced.fitsWithin htree⟩
    · rw [hget, PathMap.prune_apply, DataPath.relative?_self]
      rfl
    · obtain ⟨holder, hholder, hfits⟩ := hplaced path above previous.label habove
        (htree.objects path [] path.relative?_self)
      refine ⟨holder, ?_, hfits⟩
      rw [hget, PathMap.prune_apply, DataPath.relative?_above habove, hholder]
      rfl
  rcases hs.attach path previous false with ⟨e, he, -⟩ | ⟨id, s', -, happly, hs', hget'⟩
  · cases hcheck.symm.trans he
  · refine ⟨id, s', happly, hs', ?_⟩
    rw [hget', hget, PathMap.graft_prune htree]

theorem removed {previous : Subtree} (hplaced : PathMap.Placed map)
    (htree : PathMap.HasTree map path previous.tree) :
    Undoes [.removed path previous] (PathMap.prune path map) map := by
  refine singleton fun s hs hget => ?_
  obtain ⟨id, s', happly, hs', hget'⟩ := attach hplaced htree hs hget
  refine ⟨s', ?_, hs', hget'⟩
  rw [Undo.change, Change.apply_discard, happly]
  rfl

theorem replaced {previous : Subtree} {tree : NamedTree DataObject}
    (hplaced : PathMap.Placed map) (htree : PathMap.HasTree map path previous.tree) :
    Undoes [.replaced path previous] (PathMap.graft path tree map) map := by
  refine singleton fun s hs hget => ?_
  obtain ⟨subtree, s', happly, hs', hget'⟩ := detach path (by
    rw [PathMap.graft, DataPath.relative?_self]
    rfl) hs hget
  rw [PathMap.prune_graft] at hget'
  obtain ⟨id, s'', happly', hs'', hget''⟩ := attach hplaced htree hs' hget'
  refine ⟨s'', ?_, hs'', hget''⟩
  rw [Undo.change, Change.apply_bind, Change.apply_discard, happly]
  show (discard (Store.attach path previous false)).apply s' = _
  rw [Change.apply_discard, happly']
  rfl

/-- Taking out what was brought to a free path. -/
theorem created (hpath : (map' path).isSome) (hprune : PathMap.prune path map' = map) :
    Undoes [.created path] map' map := by
  refine singleton fun s hs hget => ?_
  obtain ⟨subtree, s', happly, hs', hget'⟩ := detach path hpath hs hget
  refine ⟨s', ?_, hs', hget'.trans hprune⟩
  rw [Undo.change, Change.apply_discard, Store.remove_apply, happly]
  rfl

/-- Taking out the groups that were missing, the last one first. -/
theorem createdEach (hclosed : PathMap.Closed map) {paths : List DataPath}
    (hfree : ∀ path ∈ paths, map path = none)
    (hpaths : paths.Pairwise fun a b => b.relative? a = none) :
    Undoes (paths.map Undo.created).reverse (PathMap.addGroups paths map) map := by
  induction paths using List.reverseRecOn with
  | nil => exact PathMap.addGroups_nil.symm ▸ nil
  | append_singleton init path ih =>
    obtain ⟨hinit, -, hlast⟩ := List.pairwise_append.1 hpaths
    rw [List.map_append, List.reverse_append]
    have hpath := hfree path (by simp)
    refine append (created ?_ ?_) (ih (fun other hother => hfree other (by simp [hother])) hinit)
    · rw [PathMap.addGroups, hpath]
      simp
    · -- Nothing else lies at or beneath the last path.
      funext other
      rw [PathMap.prune_apply, PathMap.addGroups, PathMap.addGroups]
      cases hrest : path.relative? other with
      | some rest =>
        have hother : map other = none := Option.not_isSome_iff_eq_none.1 fun hsome => by
          have htop := hclosed.isSome_of_relative? hrest hsome
          rw [hpath] at htop
          cases htop
        have hmem : other ∉ init := fun hmem => by
          rw [hlast other hmem path (by simp)] at hrest
          cases hrest
        simp [hother, hmem]
      | none =>
        have hne : other ≠ path := by
          rintro rfl
          rw [DataPath.relative?_self] at hrest
          cases hrest
        simp [hne]

end Undoes

/-! ## Making one edit

An edit that is refused does not even give another store; this is what the undoing of
those before it relies on. -/

/-- Where nothing is, there is nothing to take out. -/
theorem Undo.runAll_created {s : Store} (h : s.Sound) {paths : List DataPath}
    (hfree : ∀ path ∈ paths, s.get? path = none) : Undo.runAll (paths.map Undo.created) s = s := by
  induction paths with
  | nil => rfl
  | cons path rest ih =>
    have hrun : (Undo.created path).run s = s := by
      rw [Undo.run, Undo.change, Change.apply_discard, Store.remove_apply,
        h.coherent.detach_error (hfree path List.mem_cons_self)]
    show Undo.runAll (rest.map Undo.created) ((Undo.created path).run s) = s
    rw [hrun]
    exact ih fun other hother => hfree other (List.mem_cons_of_mem _ hother)

/-- Groups along a path that are missing: making them is undone, and a refusal
does nothing. -/
theorem makeGroups_cases {s : Store} (h : s.Sound) (path : DataPath) :
    (∃ cause, (makeGroups path).apply s = (.error cause, s)
        ∧ (Store.createGroups path).apply s = (.error cause, s))
      ∨ ∃ undo id s', (makeGroups path).apply s = (.ok undo, s')
        ∧ (Store.createGroups path).apply s = (.ok id, s') ∧ s'.Sound
        ∧ Undoes undo.reverse s'.get? s.get? := by
  let missing := path.prefixes.filter fun above => !s.contains above
  have hmissing : ∀ other, other ∈ missing ↔ other ∈ path.prefixes ∧ s.get? other = none := by
    intro other
    rw [List.mem_filter, h.coherent.contains_eq]
    cases s.get? other <;> simp
  simp only [makeGroups, Change.apply_bind, Change.apply_get, Change.apply_tryCatch,
    Change.apply_discard, Change.apply_modify, Change.apply_throw]
  rcases h.createGroups path with ⟨cause, he⟩ | ⟨id, s', happly, hs', hget⟩
  -- The refusal left no group behind, so what is run to undo them finds nothing.
  · refine Or.inl ⟨cause, ?_, he⟩
    rw [he]
    show (Except.error cause, Undo.runAll (missing.reverse.map Undo.created) s) = _
    rw [Undo.runAll_created h fun other hother =>
      ((hmissing other).1 (List.mem_reverse.1 hother)).2]
  · refine Or.inr ⟨missing.map Undo.created, id, s', ?_, happly, hs', ?_⟩
    · rw [happly]
      rfl
    · have hgroups : s'.get? = PathMap.addGroups missing s.get? := by
        rw [hget]
        funext other
        unfold PathMap.addGroups
        cases hother : s.get? other with
        | some object => rfl
        | none => simp [hmissing, hother]
      rw [hgroups]
      refine Undoes.createdEach h.placed.closed (fun other hother => ((hmissing other).1 hother).2) ?_
      exact List.Pairwise.filter _ path.descending_prefixes.pairwise

/-- **Making an edit**: it makes the change that it stands for, and what it gives
undoes it; if the change is refused, nothing has changed. -/
theorem Edit.make_cases {s : Store} (h : s.Sound) (edit : Edit) :
    (∃ cause, edit.make.apply s = (.error cause, s) ∧ edit.change.apply s = (.error cause, s))
      ∨ ∃ undo s', edit.make.apply s = (.ok undo, s') ∧ edit.change.apply s = (.ok (), s')
        ∧ s'.Sound ∧ Undoes undo.reverse s'.get? s.get? := by
  cases edit with
  | groups path =>
    rcases makeGroups_cases h path with ⟨cause, hmake, happly⟩ | ⟨undo, id, s', hmake, happly, hs', hundo⟩
    · refine Or.inl ⟨cause, hmake, ?_⟩
      rw [change, Change.apply_discard, happly]
      rfl
    · refine Or.inr ⟨undo, s', hmake, ?_, hs', hundo⟩
      rw [change, Change.apply_discard, happly]
      rfl
  | insert path subtree overwrite =>
    rcases h.attach path subtree overwrite with ⟨e, -, he⟩ | ⟨id, s', hcheck, happly, hs', hget⟩
    · refine Or.inl ⟨e, ?_, ?_⟩
      · simp only [make, Change.apply_bind, Change.apply_get, Change.apply_discard, he]
        rfl
      · rw [change, Change.apply_discard, he]
        rfl
    have hchange : (change (.insert path subtree overwrite)).apply s = (.ok (), s') := by
      rw [change, Change.apply_discard, happly]
      rfl
    cases hprevious : (if overwrite then s.snapshot? path else none) with
    | some previous =>
      -- The copy was made before, so it is what the map had at the path.
      have hcopy : s.snapshot? path = some previous := by
        split at hprevious
        · exact hprevious
        · cases hprevious
      refine Or.inr ⟨[.replaced path previous], s', ?_, hchange, hs', ?_⟩
      · simp only [make, Change.apply_bind, Change.apply_get, Change.apply_discard, happly, hprevious]
        rfl
      · rw [hget]
        exact Undoes.replaced h.placed (h.coherent.hasTree_snapshot? hcopy)
    | none =>
      -- Without a copy nothing was there, or the check would have refused.
      have hfree : s.get? path = none := by
        split at hprevious <;> rename_i hoverwrite
        · exact Store.Coherent.get?_eq_none_of_snapshot? hprevious
        · exact (h.coherent.checkAttach_eq_ok_iff.1 hcheck).1.1.resolve_right hoverwrite
      refine Or.inr ⟨[.created path], s', ?_, hchange, hs', ?_⟩
      · simp only [make, Change.apply_bind, Change.apply_get, Change.apply_discard, happly, hprevious]
        rfl
      · rw [hget]
        refine Undoes.created ?_ ?_
        · rw [PathMap.graft, DataPath.relative?_self]
          rfl
        · rw [PathMap.prune_graft, h.placed.closed.prune_eq hfree]
  | remove path =>
    rcases h.detach path with ⟨-, he⟩ | ⟨previous, s', happly, hs', hget, htree, -⟩
    · refine Or.inl ⟨.notFound path, ?_, ?_⟩
      · rw [make, Change.apply_bind, he]
      · rw [change, Change.apply_discard, he]
        rfl
    · refine Or.inr ⟨[.removed path previous], s', ?_, ?_, hs', ?_⟩
      · rw [make, Change.apply_bind, happly]
        rfl
      · rw [change, Change.apply_discard, happly]
        rfl
      · rw [hget]
        exact Undoes.removed h.placed htree

/-! ## Making edits together

The attempt carries the log of what was done. Its invariant is that the log leads back
from the present map to the one at the beginning. -/

/-- The changes of edits, one after another. -/
def Edit.changeEach (edits : List Edit) : Change Unit := edits.forM Edit.change

/-- **An attempt**, with a log of what was done before: it makes edits up to the
first that is refused, and its log undoes them and what was done before. -/
theorem attempt_cases (index : Nat) (edits : List Edit) {map : PathMap} {log : List Undo}
    {s : Store} (h : s.Sound) (hlog : Undoes log s.get? map) :
    let made := attempt index log s edits
    made.store.Sound ∧ Undoes made.log made.store.get? map
      ∧ ((made.refusal = none ∧ (Edit.changeEach edits).apply s = (.ok (), made.store))
        ∨ ∃ done edit rest cause, edits = done ++ edit :: rest
          ∧ (Edit.changeEach done).apply s = (.ok (), made.store)
          ∧ edit.change.apply made.store = (.error cause, made.store)
          ∧ made.refusal = some ⟨index + done.length, cause⟩) := by
  induction edits generalizing index log s with
  | nil => exact ⟨h, hlog, Or.inl ⟨rfl, rfl⟩⟩
  | cons edit rest ih =>
    rcases edit.make_cases h with ⟨cause, hmake, hchange⟩ | ⟨undo, s', hmake, hchange, hs', hundo⟩
    · rw [attempt, hmake]
      exact ⟨h, hlog, Or.inr ⟨[], edit, rest, cause, rfl, rfl, hchange, rfl⟩⟩
    · rw [attempt, hmake]
      -- The log of the edit goes in front, since it is undone first.
      obtain ⟨hmade, hundoes, hcases⟩ := ih (index + 1) hs' (hundo.append hlog)
      refine ⟨hmade, hundoes, ?_⟩
      rcases hcases with ⟨hrefusal, hall⟩ | ⟨done, last, others, cause, rfl, hdone, hlast, hrefusal⟩
      · refine Or.inl ⟨hrefusal, ?_⟩
        rw [Edit.changeEach, Change.apply_forM_cons, hchange]
        exact hall
      · refine Or.inr ⟨edit :: done, last, others, cause, rfl, ?_, hlast, ?_⟩
        · rw [Edit.changeEach, Change.apply_forM_cons, hchange]
          exact hdone
        · rw [hrefusal, List.length_cons, Nat.add_assoc, Nat.add_comm 1]

/-- When no step is refused, running a log is running its steps. -/
theorem Undo.runAll_eq {log : List Undo} {s s' : Store}
    (h : (log.forM Undo.change).apply s = (.ok (), s')) : Undo.runAll log s = s' := by
  induction log generalizing s with
  | nil =>
    obtain ⟨-, rfl⟩ := Prod.mk.inj h
    rfl
  | cons undo rest ih =>
    rw [Change.apply_forM_cons] at h
    show Undo.runAll rest (undo.change.apply s).2 = s'
    generalize undo.change.apply s = result at h ⊢
    obtain ⟨_ | _, _⟩ := result
    · cases h
    · exact ih h

/-- **A commit makes all edits or none.** Either it makes every edit, and leaves
the store that the edits leave one after another; or it reports the first
that is refused, with its position and cause, every step of what it undoes
then succeeds, and all objects are again what they were. -/
theorem commit_allOrNothing (operations : List Operation) (edits : List Edit) :
    let s := Store.after operations
    (∃ s', commit edits s = (.ok edits.length, s')
        ∧ (Edit.changeEach edits).apply s = (.ok (), s'))
      ∨ ∃ done edit rest cause t s', edits = done ++ edit :: rest
        ∧ (Edit.changeEach done).apply s = (.ok (), t)
        ∧ (edit.change.apply t).1 = .error cause
        ∧ commit edits s = (.error ⟨done.length, cause⟩, s')
        ∧ s'.get? = s.get? ∧ s'.contents = s.contents
        ∧ ((attempt 0 [] s edits).log.forM Undo.change).apply (attempt 0 [] s edits).store
            = (.ok (), s') := by
  intro s
  have hs : s.Sound := Store.sound_after operations
  obtain ⟨hmade, hundoes, hcases⟩ := attempt_cases 0 edits hs Undoes.nil
  rcases hcases with ⟨hrefusal, hchange⟩ | ⟨done, edit, rest, cause, hedits, hdone, hedit, hrefusal⟩
  · refine Or.inl ⟨_, ?_, hchange⟩
    rw [commit, hrefusal]
  -- The log at the refusal undoes the edits before it, back to the store that the commit began
  -- with.
  · obtain ⟨s', hrun, hs', hget⟩ := hundoes _ hmade rfl
    refine Or.inr ⟨done, edit, rest, cause, _, s', hedits, hdone, by rw [hedit], ?_, hget,
      hs'.coherent.contents_eq hs.coherent hget, hrun⟩
    rw [commit, hrefusal, Undo.runAll_eq hrun, Nat.zero_add]

/-- **A commit keeps a store sound**, with the objects that the edits leave one after another, or
with those from before. In the second case the store need not be the old one as a value: what was
taken out and brought back has new identifiers. -/
theorem Store.Sound.commit {s : Store} (h : s.Sound) (edits : List Edit) :
    (∃ s', Meshwork.commit edits s = (.ok edits.length, s') ∧ s'.Sound
        ∧ (Edit.changeEach edits).apply s = (.ok (), s'))
      ∨ ∃ e s', Meshwork.commit edits s = (.error e, s') ∧ s'.Sound ∧ s'.get? = s.get? := by
  obtain ⟨hmade, hundoes, hcases⟩ := attempt_cases 0 edits h Undoes.nil
  rcases hcases with ⟨hrefusal, hchange⟩ | ⟨done, edit, rest, cause, -, -, -, hrefusal⟩
  · refine Or.inl ⟨_, ?_, hmade, hchange⟩
    rw [Meshwork.commit, hrefusal]
  · obtain ⟨s', hrun, hs', hget⟩ := hundoes _ hmade rfl
    refine Or.inr ⟨⟨0 + done.length, cause⟩, s', ?_, hs', hget⟩
    rw [Meshwork.commit, hrefusal, Undo.runAll_eq hrun]

end Meshwork
