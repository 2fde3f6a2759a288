import Meshwork.Proofs.Store.Coherent

/-!
# Groups along a path

Creating the groups along a path goes through its prefixes, the topmost
first. It can be refused at the first group that is missing, or before it,
but not after it: the groups that follow lie in one that was just created.
So if it is refused, the store is as it was, and otherwise the missing
groups have been added to the map and nothing else
(`Store.Coherent.createGroups`).
-/

namespace Meshwork

namespace DataPath

/-! ## Ways down

The prefixes of a path are a way down: each lies directly beneath the one before.
Statements about creating groups are made for ways, so that they can be cut in two. -/

/-- Every path of a list lies directly beneath the one before it, the first one
beneath `above`. -/
def Descending : (above : Option DataPath) → List DataPath → Prop
  | _, [] => True
  | above, path :: rest => path.parent? = above ∧ Descending (some path) rest

/-- Later paths lie beneath earlier ones. -/
theorem Descending.relative? {top : DataPath} {paths : List DataPath}
    (h : Descending (some top) paths) :
    ∀ path ∈ paths, ∃ rest, rest ≠ [] ∧ top.relative? path = some rest := by
  induction paths generalizing top with
  | nil => simp
  | cons first others ih =>
    intro path hpath
    have hfirst : top.relative? first = some [first.name] :=
      relative?_eq_some_iff.2 (parent?_eq_some_iff.1 h.1)
    rcases List.mem_cons.1 hpath with rfl | hpath
    · exact ⟨_, List.cons_ne_nil _ _, hfirst⟩
    · obtain ⟨rest, -, hrest⟩ := ih h.2 path hpath
      refine ⟨first.name :: rest, List.cons_ne_nil _ _, relative?_eq_some_iff.2 ?_⟩
      rw [relative?_eq_some_iff.1 hrest, relative?_eq_some_iff.1 hfirst, List.append_assoc]
      rfl

/-- No path lies beneath a later one. -/
theorem Descending.pairwise {above : Option DataPath} {paths : List DataPath}
    (h : Descending above paths) : paths.Pairwise fun a b => b.relative? a = none := by
  induction paths generalizing above with
  | nil => exact List.Pairwise.nil
  | cons first others ih =>
    refine List.pairwise_cons.2 ⟨fun path hpath => ?_, ih h.2⟩
    obtain ⟨rest, hne, hrest⟩ := h.2.relative? path hpath
    refine NamedForest.relative?_eq_none_iff.2 fun back hback => hne ?_
    have hlength := congrArg List.length hback
    rw [relative?_eq_some_iff.1 hrest] at hlength
    simp only [List.length_append] at hlength
    exact List.length_eq_zero_iff.1 (by omega)

/-- **The groups above a path** come one beneath the other, starting from any of them. There are
`k` of them here, the first of depth `n + 1`. -/
theorem descending_initial (path : DataPath) (n k : Nat) (h : n + k ≤ path.depth) :
    Descending (if n = 0 then none else some (path.initial (n - 1)))
      ((List.range' n k).map path.initial) := by
  induction k generalizing n with
  | zero => trivial
  | succ k ih =>
    refine ⟨?_, ih (n + 1) (by omega)⟩
    have hlength : n + (k + 1) ≤ path.segments.length := h
    -- The first one lies at the top; each other one lies in the one before.
    cases n with
    | zero =>
      rw [if_pos rfl]
      refine if_pos ?_
      show (path.segments.take 1).length ≤ 1
      rw [List.length_take]
      omega
    | succ n =>
      rw [if_neg (Nat.succ_ne_zero n), parent?_eq_some_iff]
      refine (segments_eq _).trans (congrArg (· ++ _) ?_)
      show (path.segments.take (n + 2)).dropLast = path.segments.take (n + 1)
      rw [List.dropLast_eq_take, List.length_take, List.take_take]
      congr 1
      omega

/-- **The prefixes of a path** go down from the top. They end with the path itself. -/
theorem descending_prefixes (path : DataPath) : Descending none path.prefixes := by
  rw [prefixes, List.range_eq_range']
  exact descending_initial path 0 path.depth (by omega)

theorem prefixes_eq (path : DataPath) : path.prefixes = path.ancestors ++ [path] := by
  have hpos : 0 < path.segments.length := List.length_pos_iff.2 path.nonempty
  obtain ⟨n, hn⟩ : ∃ n, path.depth = n + 1 := ⟨path.depth - 1, by unfold depth; omega⟩
  have hlast : path.initial n = path := ext (by
    show path.segments.take (n + 1) = path.segments
    exact List.take_of_length_le (Nat.le_of_eq hn))
  rw [prefixes, ancestors, hn, List.range_succ, List.map_append, Nat.add_sub_cancel]
  simp [hlast]

end DataPath

namespace PathMap

variable {map : PathMap} {top : DataPath} {paths : List DataPath}

/-! ## The map with more groups

Groups are added where nothing is. Since a way goes down, a group that is added leaves the
paths before it alone. -/

/-- The map with a group at every path of a list where nothing is. -/
def addGroups (paths : List DataPath) (map : PathMap) : PathMap := fun path =>
  (map path).or (if path ∈ paths then some .group else none)

/-- Bringing a group to a free path adds it, and nothing beneath it. -/
theorem Closed.graft_group (h : map.Closed) (hfree : map top = none) :
    graft top (Subtree.leaf .group).tree map = addGroups [top] map := by
  show graft top (.node .group []) map = _
  rw [h.graft_leaf hfree]
  funext path
  rw [addGroups]
  by_cases hpath : path = top
  · simp [hpath, hfree]
  · simp [hpath]

theorem addGroups_nil : addGroups [] map = map := by
  funext path
  simp [addGroups]

/-- Where something is, no group is added. -/
theorem addGroups_cons_of_isSome (h : (map top).isSome) :
    addGroups (top :: paths) map = addGroups paths map := by
  funext path
  unfold addGroups
  by_cases hpath : path = top
  · obtain ⟨object, hobject⟩ := Option.isSome_iff_exists.1 h
    rw [hpath, hobject]
    rfl
  · simp [hpath]

/-- Beneath a path, all paths stay free when a group is added there. -/
theorem addGroups_eq_none {others : List DataPath} (hothers : DataPath.Descending (some top) others)
    (hfree : ∀ path ∈ others, map path = none) :
    ∀ path ∈ others, addGroups [top] map path = none := by
  intro path hpath
  obtain ⟨rest, hne, hrest⟩ := hothers.relative? path hpath
  have htop : path ≠ top := by
    rintro rfl
    rw [DataPath.relative?_self] at hrest
    exact hne (Option.some.inj hrest).symm
  rw [addGroups, hfree path hpath, Option.none_or, if_neg (by simpa using htop)]

theorem addGroups_addGroups (others : List DataPath) :
    addGroups others (addGroups paths map) = addGroups (paths ++ others) map := by
  funext path
  unfold addGroups
  cases map path with
  | some object => rfl
  | none =>
    by_cases hpaths : path ∈ paths
    · simp [hpaths]
    · simp [hpaths]

end PathMap

namespace Store

variable {s : Store} {path : DataPath}

/-! ## Creating them

One step looks at one path. Above the first group that is missing everything is there and
may be refused; beneath it nothing is there and nothing is refused. -/

/-- What `ensureGroup` does where there is an object. -/
theorem ensureGroup_some {id : ObjectId} {object : DataObject} (hid : s.idOf? path = some id)
    (hobject : s.object? id = some object) :
    (ensureGroup path).apply s
      = (if object.isContainer then .ok id else .error (.notAContainer path object.kind), s) := by
  simp only [ensureGroup, Change.apply_bind, Change.apply_get, hid, hobject]
  split <;> rfl

/-- What `ensureGroup` does where nothing is. -/
theorem ensureGroup_none (h : s.idOf? path = none) :
    (ensureGroup path).apply s = (attach path (.leaf .group) false).apply s := by
  simp only [ensureGroup, Change.apply_bind, Change.apply_get, h]
  rfl

/-- **What `ensureGroup` does** to a coherent store: nothing, with a container at the path or a
refusal, or else it adds a group. Whether it is refused depends on the object above and on what
lies at the path. -/
theorem Coherent.ensureGroup (h : s.Coherent) (hplaced : PathMap.Placed s.get?)
    (path : DataPath) :
    (∃ e, (Store.ensureGroup path).apply s = (.error e, s))
      ∨ (∃ id, (s.get? path).isSome ∧ (Store.ensureGroup path).apply s = (.ok id, s))
      ∨ ∃ id s', s.get? path = none ∧ (Store.ensureGroup path).apply s = (.ok id, s')
        ∧ s'.Coherent ∧ PathMap.Placed s'.get? ∧ s'.get? = PathMap.addGroups [path] s.get? := by
  -- What is there is passed or refused by its kind; only a free path is given a group.
  cases hid : s.idOf? path with
  | some id =>
    have hpath : (s.get? path).isSome := by
      rw [← h.contains_eq, contains, hid]
      rfl
    obtain ⟨object, hobject⟩ := Option.isSome_iff_exists.1 hpath
    rw [get?, hid] at hobject
    rw [ensureGroup_some hid hobject]
    split
    · exact Or.inr (Or.inl ⟨id, hpath, rfl⟩)
    · exact Or.inl ⟨_, rfl⟩
  | none =>
    have hfree : s.get? path = none := by rw [get?, hid]; rfl
    rw [ensureGroup_none hid]
    cases hcheck : s.checkAttach path (.leaf .group) false with
    | error e => exact Or.inl ⟨e, attach_error hcheck⟩
    | ok _ =>
      obtain ⟨id, s', happly, hs', hget⟩ := h.attach hcheck
      obtain ⟨⟨-, habove⟩, -, hfits⟩ := h.checkAttach_eq_ok_iff.1 hcheck
      refine Or.inr (Or.inr ⟨id, s', hfree, happly, hs', ?_, ?_⟩)
      · rw [hget]
        exact hplaced.graft habove hfits
      · rw [hget, hplaced.closed.graft_group hfree]

/-- Directly beneath a group, a missing group is added without a refusal. -/
theorem Coherent.ensureGroup_of_group {above : DataPath} (h : s.Coherent)
    (hparent : path.parent? = some above) (habove : s.get? above = some .group)
    (hfree : s.get? path = none) : ∃ id s', (Store.ensureGroup path).apply s = (.ok id, s') := by
  have hcheck : s.checkAttach path (.leaf .group) false = .ok () := by
    refine h.checkAttach_leaf hfree fun other hother => ?_
    obtain rfl := Option.some.inj (hparent.symm.trans hother)
    exact ⟨.group, habove, trivial⟩
  obtain ⟨id, s', happly, -⟩ := h.attach hcheck
  refine ⟨id, s', ?_⟩
  rw [ensureGroup_none, happly]
  have hcontains := h.contains_eq path
  rw [hfree, contains] at hcontains
  simpa using hcontains

/-- Creates the missing groups among some paths. -/
def ensureGroups (paths : List DataPath) : Change Unit :=
  paths.forM fun path => discard (Store.ensureGroup path)

theorem ensureGroups_cons (first : DataPath) (others : List DataPath) :
    (ensureGroups (first :: others)).apply s = match (Store.ensureGroup first).apply s with
      | (.ok _, s') => (ensureGroups others).apply s'
      | (.error e, s') => (.error e, s') := by
  rw [ensureGroups, Change.apply_forM_cons, Change.apply_discard]
  obtain ⟨_ | _, _⟩ := (Store.ensureGroup first).apply s <;> rfl

/-- Beneath a group, missing groups are added without a refusal. -/
theorem Coherent.ensureGroups_of_group {paths : List DataPath} {above : DataPath}
    (h : s.Coherent) (hplaced : PathMap.Placed s.get?)
    (hpaths : DataPath.Descending (some above) paths) (habove : s.get? above = some .group)
    (hfree : ∀ path ∈ paths, s.get? path = none) :
    ∃ s', (ensureGroups paths).apply s = (.ok (), s') ∧ s'.Coherent ∧ PathMap.Placed s'.get?
      ∧ s'.get? = PathMap.addGroups paths s.get? := by
  induction paths generalizing s above with
  | nil => exact ⟨s, rfl, h, hplaced, PathMap.addGroups_nil.symm⟩
  | cons first others ih =>
    have hfirst := hfree first List.mem_cons_self
    obtain ⟨id, s', happly⟩ := h.ensureGroup_of_group hpaths.1 habove hfirst
    rcases h.ensureGroup hplaced first with ⟨e, he⟩ | ⟨_, hthere, -⟩ | ⟨_, _, -, he, hs', hplaced', hget⟩
    · rw [happly] at he
      cases he
    · rw [hfirst] at hthere
      cases hthere
    · rw [happly] at he
      cases he
      -- What was just created holds what follows, which stays free.
      have hgroup : s'.get? first = some .group := by
        rw [hget, PathMap.addGroups, hfirst]
        simp
      have hrest : ∀ path ∈ others, s'.get? path = none :=
        hget ▸ PathMap.addGroups_eq_none hpaths.2 fun path hpath =>
          hfree path (List.mem_cons_of_mem _ hpath)
      obtain ⟨s'', happly', hs'', hplaced'', hget'⟩ := ih hs' hplaced' hpaths.2 hgroup hrest
      refine ⟨s'', ?_, hs'', hplaced'', ?_⟩
      · rw [ensureGroups_cons, happly]
        exact happly'
      · rw [hget', hget, PathMap.addGroups_addGroups]
        rfl

/-- **Creating the groups along a way** down adds those that are missing, or is refused and does
nothing. A refusal can only come before anything is added, since from there on each lies in a
group that is new. -/
theorem Coherent.ensureGroups {paths : List DataPath} {above : Option DataPath}
    (h : s.Coherent) (hplaced : PathMap.Placed s.get?) (hpaths : DataPath.Descending above paths) :
    (∃ e, (Store.ensureGroups paths).apply s = (.error e, s))
      ∨ ∃ s', (Store.ensureGroups paths).apply s = (.ok (), s') ∧ s'.Coherent
        ∧ PathMap.Placed s'.get? ∧ s'.get? = PathMap.addGroups paths s.get? := by
  induction paths generalizing above with
  | nil => exact Or.inr ⟨s, rfl, h, hplaced, PathMap.addGroups_nil.symm⟩
  | cons first others ih =>
    rw [ensureGroups_cons]
    rcases h.ensureGroup hplaced first with
      ⟨e, he⟩ | ⟨id, hthere, happly⟩ | ⟨id, s', hfree, happly, hs', hplaced', hget⟩
    · exact Or.inl ⟨e, by rw [he]⟩
    -- Something is there already, and the way goes on beneath it.
    · rw [happly, PathMap.addGroups_cons_of_isSome hthere]
      exact ih hpaths.2
    · -- The groups that follow are all missing, and lie in the one just created.
      have hgroup : s'.get? first = some .group := by
        rw [hget, PathMap.addGroups, hfree]
        simp
      have hrest : ∀ path ∈ others, s'.get? path = none :=
        hget ▸ PathMap.addGroups_eq_none hpaths.2 fun path hpath => by
          obtain ⟨rest, -, hrest⟩ := hpaths.2.relative? path hpath
          refine Option.not_isSome_iff_eq_none.1 fun hsome => ?_
          have htop := hplaced.closed.isSome_of_relative? hrest hsome
          rw [hfree] at htop
          cases htop
      obtain ⟨s'', happly', hs'', hplaced'', hget'⟩ :=
        hs'.ensureGroups_of_group hplaced' hpaths.2 hgroup hrest
      refine Or.inr ⟨s'', ?_, hs'', hplaced'', ?_⟩
      · rw [happly]
        exact happly'
      · rw [hget', hget, PathMap.addGroups_addGroups]
        rfl

/-- Creating the groups along a path is creating those of its prefixes. -/
theorem createGroups_apply (path : DataPath) :
    (ensureGroups path.prefixes).apply s
      = (((createGroups path).apply s).1.map fun _ => (), ((createGroups path).apply s).2) := by
  rw [path.prefixes_eq, ensureGroups, Change.apply_forM_append, createGroups, Change.apply_bind]
  obtain ⟨_ | _, s'⟩ := (path.ancestors.forM fun path => discard (Store.ensureGroup path)).apply s
  · rfl
  · show (ensureGroups [path]).apply s'
      = (((Store.ensureGroup path).apply s').1.map _, ((Store.ensureGroup path).apply s').2)
    rw [ensureGroups_cons]
    obtain ⟨_ | _, _⟩ := (Store.ensureGroup path).apply s' <;> rfl

/-- **Creating the groups along a path** adds those that are missing, or is refused and does
nothing. So the change is all or nothing, though the groups are made one by one. -/
theorem Coherent.createGroups (h : s.Coherent) (hplaced : PathMap.Placed s.get?)
    (path : DataPath) :
    (∃ e, (Store.createGroups path).apply s = (.error e, s))
      ∨ ∃ id s', (Store.createGroups path).apply s = (.ok id, s') ∧ s'.Coherent
        ∧ PathMap.Placed s'.get? ∧ s'.get? = PathMap.addGroups path.prefixes s.get? := by
  have heach := h.ensureGroups hplaced path.descending_prefixes
  rw [createGroups_apply] at heach
  generalize (Store.createGroups path).apply s = result at heach ⊢
  obtain ⟨e | id, s'⟩ := result
  · rcases heach with ⟨e', he⟩ | ⟨s'', he, -⟩
    · obtain ⟨-, rfl⟩ := Prod.mk.inj he
      exact Or.inl ⟨e, rfl⟩
    · cases he
  · rcases heach with ⟨e', he⟩ | ⟨s'', he, hs', hplaced', hget⟩
    · cases he
    · obtain ⟨-, rfl⟩ := Prod.mk.inj he
      exact Or.inr ⟨id, s', rfl, hs', hplaced', hget⟩

end Store

end Meshwork
